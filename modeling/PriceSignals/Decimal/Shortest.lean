/-
Module: PriceSignals.Decimal.Shortest
Purpose: The shortest decimal that is read back as a given double.
Main exports:
  Tie, lowerGap, candidate?, shortest
-/

namespace PriceSignals.Decimal

/-!
A double `m * 2 ^ q` with `m > 0` is what every number of an interval around it is rounded to.
The interval reaches half way to the two neighbouring doubles, and holds its ends when `m` is
even. On the grid of the multiples of `10 ^ i`, only the two grid points around the double can
be the nearest ones in that interval. The grids are tried from coarse to fine, so the first
grid with a point in the interval gives the fewest digits.

All comparisons are made on natural numbers: with `u = unit q i` and `d = parts q i` the double
is `m * u / d` steps of the grid.
-/

/-- Which of two equally near decimals is taken. -/
inductive Tie where
  | up
  | even
deriving Repr, DecidableEq

/-- The distance to the lower end of the interval in quarters of the last place. Below a power
of two the doubles lie twice as dense, except at the bottom of the range. -/
def lowerGap (m : Nat) (q : Int) : Nat :=
  if m = Nat.pow 2 52 ∧ -1074 < q then 1 else 2

/-- The numerator of one last place, counted in steps of the grid. -/
def unit (q i : Int) : Nat := Nat.pow 2 q.toNat * Nat.pow 10 (-i).toNat

/-- The denominator that goes with `unit`. -/
def parts (q i : Int) : Nat := Nat.pow 2 (-q).toNat * Nat.pow 10 i.toNat

/-- The grid point just below the double, or the double itself if it is on the grid. -/
def below (m : Nat) (q i : Int) : Nat := m * unit q i / parts q i

/-- `a` is smaller than `b`, or equal to it where the ends belong to the interval. -/
def within (closed : Bool) (a b : Nat) : Bool :=
  if closed then decide (a ≤ b) else decide (a < b)

/-- The point of the grid `10 ^ i` that stands for the double, if one lies in its interval. -/
def candidate? (tie : Tie) (m : Nat) (q i : Int) : Option Nat :=
  let u := unit q i
  let d := parts q i
  let s := below m q i
  let closed := m % 2 == 0
  let lowFits := within closed ((4 * m - lowerGap m q) * u) (4 * s * d)
  let highFits := within closed (4 * (s + 1) * d) ((4 * m + 2) * u)
  if lowFits && highFits then
    let fromLow := 2 * (m * u)
    let middle := (2 * s + 1) * d
    if fromLow < middle then some s
    else if middle < fromLow then some (s + 1)
    else match tie with
      | .up => some (s + 1)
      | .even => if s % 2 = 0 then some s else some (s + 1)
  else if lowFits then some s
  else if highFits then some (s + 1)
  else none

/-- Tries the grids from `i` downwards. -/
def scan (tie : Tie) (m : Nat) (q : Int) : Nat → Int → Nat × Int
  | 0, i => (below m q i, i)
  | fuel + 1, i =>
    match candidate? tie m q i with
    | some n => (n, i)
    | none => scan tie m q fuel (i - 1)

/-- A grid so coarse that none of its positive points is as small as `m * 2 ^ q`. -/
def coarsest (m : Nat) (q : Int) : Int :=
  ((m.log2 : Int) + 1 + q) * 30103 / 100000 + 1

/-- The shortest decimal `n * 10 ^ i` that is rounded to `m * 2 ^ q`, and of those the nearest.
On the grid of `10 ^ q` (or of the units) the double itself is a point, so the scan always ends
there at the latest. -/
def shortest (tie : Tie) (m : Nat) (q : Int) : Nat × Int :=
  let top := coarsest m q
  scan tie m q (top - min q 0).toNat top

end PriceSignals.Decimal
