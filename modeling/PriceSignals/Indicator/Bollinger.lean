/-
Module: PriceSignals.Indicator.Bollinger
Purpose: Bollinger bands, a moving average with bands at a multiple of the deviation.
Main exports:
  Bands, Bollinger, Bollinger.make, Bollinger.around, Bollinger.valuesFrom, Bollinger.values
-/
import PriceSignals.Decimal.Style
import PriceSignals.Indicator.Sma

namespace PriceSignals.Indicator

/-- The bands at one close. -/
structure Bands where
  upper : Float
  middle : Float
  lower : Float

/-- Bands over `period` closes at `multiplier` deviations. -/
structure Bollinger where
  period : Nat
  multiplier : Float
  period_pos : 0 < period
  multiplier_ok : IsMultiplier multiplier

namespace Bollinger

/-- The bands for a period, which has to be at least one, and a multiplier, which has to be
finite and not negative. The period is looked at first. -/
def make (period : Nat) (multiplier : Float) : Except Violation Bollinger :=
  if hp : 0 < period then
    if hm : IsMultiplier multiplier then .ok ⟨period, multiplier, hp, hm⟩
    else .error .bollingerMultiplier
  else .error .bollingerPeriod

/-- The name that reports use. -/
def name (k : Bollinger) : String :=
  s!"bollinger_{k.period}_" ++ Decimal.display k.multiplier

/-- How many closes have no value at the start of a history. -/
def lookback (k : Bollinger) : Nat := min k.period 2 - 1

/-- The mean square distance of some numbers from a middle. -/
def variance (window : List Float) (middle : Float) : Float :=
  Series.total (window.map fun price => (price - middle) * (price - middle))
    / Float.ofNat window.length

/-- The bands of a window around a given middle. -/
def around (k : Bollinger) (window : List Float) (middle : Float) : Bands :=
  let width := k.multiplier * (variance window middle).sqrt
  { upper := middle + width, middle, lower := middle - width }

/-- The bands at the newest close, given the closes so far with the newest first and the moving
average there. A full window takes that average as its middle. Before, the bands are those of
all closes so far, once there are two of them. -/
def latest? (k : Bollinger) (seen : List Float) (average : Option Float) : Option Bands :=
  let window := Series.latest k.period seen
  if window.length < k.period then
    if window.length < 2 then none else some (k.around window (Series.mean window))
  else average.map (k.around window)

/-- The bands at every close, given the moving average at every close. -/
def valuesFrom (k : Bollinger) (closes : List Float) (averages : List (Option Float)) :
    List (Option Bands) :=
  (Series.trailing k.latest? [] closes).zipWith (fun bands average => bands average) averages

/-- The bands at every close. -/
def values (k : Bollinger) (closes : List Float) : List (Option Bands) :=
  k.valuesFrom closes (Sma.values ⟨k.period, k.period_pos⟩ closes)

end Bollinger

end PriceSignals.Indicator
