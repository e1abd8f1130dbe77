/-
Module: PriceSignals.Series
Purpose: Sums, means and trailing windows of a series of numbers.
Main exports:
  total, mean, trailing, window?, changes
-/

namespace PriceSignals.Series

/-- Adds numbers from left to right. The empty sum is `-0.0`, the number that changes nothing
when it is added. -/
def total (xs : List Float) : Float := xs.foldl (· + ·) (-0.0)

/-- The sum of some numbers divided by their count. -/
def mean (xs : List Float) : Float := total xs / Float.ofNat xs.length

/-- Maps every place of a series to what `f` makes of the values up to that place, which it is
given with the newest value first. `seen` are the values before the series. -/
def trailing {α β : Type} (f : List α → β) (seen : List α) : List α → List β
  | [] => []
  | x :: xs => f (x :: seen) :: trailing f (x :: seen) xs

/-- The latest `size` values in the order of time, the newest value being first in `seen`.
There are fewer where the series has not yet so many. -/
def latest {α : Type} (size : Nat) (seen : List α) : List α := (seen.take size).reverse

/-- The differences between each value and the one before it. -/
def changes : List Float → List Float
  | x :: y :: rest => (y - x) :: changes (y :: rest)
  | _ => []

end PriceSignals.Series
