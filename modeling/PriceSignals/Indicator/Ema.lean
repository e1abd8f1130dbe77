/-
Module: PriceSignals.Indicator.Ema
Purpose: The exponential moving average, which starts at the first close.
Main exports:
  Ema, Ema.make, Ema.series, Ema.values
-/
import PriceSignals.Indicator.Contract

namespace PriceSignals.Indicator

/-- An exponential moving average whose weights fall as over `period` closes. -/
structure Ema where
  period : Nat
  period_pos : 0 < period

namespace Ema

/-- The average over a period, which has to be at least one. -/
def make (period : Nat) : Except Violation Ema :=
  if h : 0 < period then .ok ⟨period, h⟩ else .error .emaPeriod

/-- The name that reports use. -/
def name (k : Ema) : String := s!"ema_{k.period}"

/-- How many closes have no value at the start of a history: none. -/
def lookback (_ : Ema) : Nat := 0

/-- The weight of a new value. -/
def weight (k : Ema) : Float := 2.0 / (Float.ofNat k.period + 1.0)

/-- The average after a new value. -/
def next (k : Ema) (average value : Float) : Float :=
  value * k.weight + average * (1.0 - k.weight)

/-- The averages after each further value. -/
def follow (k : Ema) : Float → List Float → List Float
  | _, [] => []
  | average, value :: rest =>
    let average := k.next average value
    average :: k.follow average rest

/-- The average at every value; at the first it is that value. -/
def series (k : Ema) : List Float → List Float
  | [] => []
  | value :: rest => value :: k.follow value rest

/-- The average at every close; it is never absent. -/
def values (k : Ema) (closes : List Float) : List (Option Float) :=
  (k.series closes).map some

end Ema

end PriceSignals.Indicator
