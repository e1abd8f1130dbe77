/-
Module: PriceSignals.Indicator.Macd
Purpose: Moving average convergence and divergence.
Main exports:
  Convergence, Macd, Macd.make, Macd.valuesFrom, Macd.values
-/
import PriceSignals.Indicator.Ema

namespace PriceSignals.Indicator

/-- The line, its own average and their distance at one close. -/
structure Convergence where
  line : Float
  signal : Float
  histogram : Float

/-- The distance of a fast and a slow exponential average, with a signal average over it. -/
structure Macd where
  fast : Nat
  slow : Nat
  signal : Nat
  fast_pos : 0 < fast
  slow_pos : 0 < slow
  signal_pos : 0 < signal

namespace Macd

/-- The indicator for three periods, which all have to be at least one. The fast one may be the
longer one. -/
def make (fast slow signal : Nat) : Except Violation Macd :=
  if h : 0 < fast ∧ 0 < slow ∧ 0 < signal then
    .ok ⟨fast, slow, signal, h.1, h.2.1, h.2.2⟩
  else .error .macdPeriods

/-- The name that reports use. -/
def name (k : Macd) : String := s!"macd_{k.fast}_{k.slow}_{k.signal}"

/-- How many closes have no value at the start of a history: none. Both averages start at the
first close, so the line is there from the beginning. -/
def lookback (_ : Macd) : Nat := 0

/-- The values at every close, given the two averages at every close. -/
def valuesFrom (k : Macd) (fast slow : List Float) : List (Option Convergence) :=
  let line := fast.zipWith (· - ·) slow
  let signal := Ema.series ⟨k.signal, k.signal_pos⟩ line
  line.zipWith (fun l s => some { line := l, signal := s, histogram := l - s }) signal

/-- The values at every close. -/
def values (k : Macd) (closes : List Float) : List (Option Convergence) :=
  k.valuesFrom (Ema.series ⟨k.fast, k.fast_pos⟩ closes) (Ema.series ⟨k.slow, k.slow_pos⟩ closes)

end Macd

end PriceSignals.Indicator
