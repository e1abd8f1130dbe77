/-
Module: PriceSignals.Indicator.Sma
Purpose: The simple moving average, the plain mean over a trailing window.
Main exports:
  Sma, Sma.make, Sma.values
-/
import PriceSignals.Indicator.Contract
import PriceSignals.Series

namespace PriceSignals.Indicator

/-- A simple moving average over `period` closes. -/
structure Sma where
  period : Nat
  period_pos : 0 < period

namespace Sma

/-- The average over a period, which has to be at least one. -/
def make (period : Nat) : Except Violation Sma :=
  if h : 0 < period then .ok ⟨period, h⟩ else .error .smaPeriod

/-- The name that reports use. -/
def name (k : Sma) : String := s!"sma_{k.period}"

/-- How many closes have no value at the start of a history. -/
def lookback (k : Sma) : Nat := k.period - 1

/-- The average of a full window, given the closes so far with the newest first. Each window is
summed on its own, so no rounding error is carried from one to the next. -/
def latest? (k : Sma) (seen : List Float) : Option Float :=
  let window := Series.latest k.period seen
  if window.length < k.period then none
  else some (Series.total window / Float.ofNat k.period)

/-- The average at every close. -/
def values (k : Sma) (closes : List Float) : List (Option Float) :=
  Series.trailing k.latest? [] closes

end Sma

end PriceSignals.Indicator
