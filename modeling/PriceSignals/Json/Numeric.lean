/-
Module: PriceSignals.Json.Numeric
Purpose: The number that a JSON literal stands for.
Main exports:
  Numeric, Numeric.ofLiteral?, Numeric.toFloat, scaled?
-/
import PriceSignals.Decimal.Literal

namespace PriceSignals.Json

/-- A number of a document. Whole numbers that fit a word are kept exactly. -/
inductive Numeric where
  /-- A whole number below `2 ^ 64`. -/
  | natural (n : Nat)
  /-- A negative whole number from `-2 ^ 63` on, given by its size. -/
  | negative (n : Nat)
  | float (x : Float)

/-- A number as a double. -/
def Numeric.toFloat : Numeric → Float
  | .natural n => Float.ofNat n
  | .negative n => -Float.ofNat n
  | .float x => x

/-!
A decimal is read into a 64-bit significand and a power of ten, and the power is applied by one
multiplication or division of doubles. Digits that the significand cannot hold are dropped. The
result may therefore be off by a few units in the last place; decimals of up to 15 digits with a
small exponent are exact to the last bit.
-/

/-- The bound of the significand. -/
def significandBound : Nat := UInt64.size

/-- Appends digits to a significand as long as it stays below its bound; the digits that are
left over come second. -/
def absorb (significand : Nat) : List Digit → Nat × List Digit
  | [] => (significand, [])
  | d :: rest =>
    let next := significand * 10 + d.val
    if next < significandBound then absorb next rest else (significand, d :: rest)

/-- A power of ten up to `1e308` as a double. -/
def powerOfTen (k : Nat) : Float := Float.ofScientific 1 false k

/-- Divides by `10 ^ k`, in steps of `1e308`. -/
def divideByPower (x : Float) (k : Nat) : Float :=
  if k ≤ 308 then x / powerOfTen k
  else if x == 0.0 then x
  else divideByPower (x / powerOfTen 308) (k - 308)
termination_by k

/-- A significand times a power of ten, unless that is too large for a double. -/
def scaled? (significand : Nat) (exponent : Int) : Option Float :=
  let x := Float.ofNat significand
  if exponent < 0 then some (divideByPower x exponent.natAbs)
  else if exponent ≤ 308 then
    let y := x * powerOfTen exponent.natAbs
    if y.isInf then none else some y
  else if x == 0.0 then some x
  else none

/-- The sum of two exponents within the range of a signed 32-bit word. -/
def clampExponent (e : Int) : Int := max Int32.minValue.toInt (min e Int32.maxValue.toInt)

/-- The size of a number that is not a plain whole number. -/
def sizeOf? (significand : Nat) (shift : Int) : Option Decimal.Exponent → Option Float
  | none => scaled? significand shift
  | some e =>
    let power := Digit.value e.digits
    if Int32.maxValue.toInt < power then
      if significand ≠ 0 ∧ ¬ e.negative then none else some 0.0
    else scaled? significand (clampExponent (shift + e.toInt))

/-- The number that a literal stands for, unless it is too large. Minus zero is a double. -/
def Numeric.ofLiteral? (l : Decimal.Literal) : Option Numeric :=
  let (first, left) := absorb 0 l.whole
  let plain := left.isEmpty && l.fraction.isEmpty && l.exponent.isNone
  if plain then
    if ¬ l.negative then some (.natural first)
    else if 0 < first ∧ Int64.minValue.toInt ≤ -(first : Int) then some (.negative first)
    else some (.float (-Float.ofNat first))
  else
    let (significand, dropped) := absorb first l.fraction
    let shift : Int := (left.length : Int) - ((l.fraction.length - dropped.length : Nat) : Int)
    (sizeOf? significand shift l.exponent).map fun x => .float (if l.negative then -x else x)

end PriceSignals.Json
