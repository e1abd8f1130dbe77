/-
Module: PriceSignals.Indicator.Rsi
Purpose: The relative strength index with Wilder's smoothing.
Main exports:
  Rsi, Rsi.make, Rsi.Averages, Rsi.index, Rsi.values
-/
import PriceSignals.Indicator.Contract
import PriceSignals.Series

namespace PriceSignals.Indicator

/-- A relative strength index over `period` price changes. -/
structure Rsi where
  period : Nat
  period_pos : 0 < period

namespace Rsi

/-- The index over a period, which has to be at least one. -/
def make (period : Nat) : Except Violation Rsi :=
  if h : 0 < period then .ok ⟨period, h⟩ else .error .rsiPeriod

/-- The name that reports use. -/
def name (k : Rsi) : String := s!"rsi_{k.period}"

/-- How many closes have no value at the start of a history. -/
def lookback (k : Rsi) : Nat := k.period

/-- What stands in for an average loss of exactly zero. It is a floor for the division and no
statement about the market: a flat history reads 0, and one that only rises reads the more the
larger its steps are, and 100 itself once the quotient is lost in rounding. -/
def lossFloor : Float := 1e-4

/-- The greater one of a number and zero; for NaN it is zero. -/
def positivePart (x : Float) : Float := if 0.0 < x then x else 0.0

/-- The gain in a price change. -/
def gain (change : Float) : Float := positivePart change

/-- The loss in a price change. -/
def loss (change : Float) : Float := positivePart (-change)

/-- The smoothed gain and loss per change. -/
structure Averages where
  gain : Float
  loss : Float

/-- The index that two averages stand for. -/
def index (a : Averages) : Float :=
  let divisor := if a.loss == 0.0 then lossFloor else a.loss
  100.0 - 100.0 / (1.0 + a.gain / divisor)

/-- The averages over the first `period` changes: plain means. -/
def start (k : Rsi) (changes : List Float) : Averages :=
  let first := changes.take k.period
  { gain := Series.total (first.map gain) / Float.ofNat k.period
    loss := Series.total (first.map loss) / Float.ofNat k.period }

/-- An average after a new value, the old one weighing `period - 1` times as much. -/
def smooth (k : Rsi) (average value : Float) : Float :=
  (average * Float.ofNat (k.period - 1) + value) / Float.ofNat k.period

/-- The averages after a further change. -/
def next (k : Rsi) (a : Averages) (change : Float) : Averages :=
  { gain := k.smooth a.gain (gain change), loss := k.smooth a.loss (loss change) }

/-- The averages before and after each of some changes. -/
def run (k : Rsi) (a : Averages) : List Float → List Averages
  | [] => [a]
  | change :: rest => a :: k.run (k.next a change) rest

/-- The index at every close. The first `period` closes have none. -/
def values (k : Rsi) (closes : List Float) : List (Option Float) :=
  if closes.length ≤ k.period then closes.map fun _ => none
  else
    let changes := Series.changes closes
    List.replicate k.period none
      ++ (k.run (k.start changes) (changes.drop k.period)).map fun a => some (index a)

end Rsi

end PriceSignals.Indicator
