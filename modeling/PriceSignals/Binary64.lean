/-
Module: PriceSignals.Binary64
Purpose: The exact value of a double, and rounding to whole numbers on that value.
Main exports:
  magnitude?, isNegative, floor?, nearestNat?
-/

namespace PriceSignals.Binary64

open Float.Model

/-- The exact size of a finite double: `some (m, q)` says that it is `m * 2 ^ q`.
Infinities and NaN have none. -/
def magnitude? (x : Float) : Option (Nat × Int) :=
  match x.toModel.unpack with
  | .zero _ => some (0, 0)
  | .finite _ m q _ => some (m, q)
  | .infinity _ => none
  | .notANumber => none

/-- Whether a sign is the minus sign. -/
def isMinus : UnpackedFloat.Sign → Bool
  | .negative => true
  | .positive => false

/-- Whether the sign bit is set; so it is for `-0.0`, and never for NaN. -/
def isNegative (x : Float) : Bool :=
  match x.toModel.unpack with
  | .zero s => isMinus s
  | .finite s _ _ _ => isMinus s
  | .infinity s => isMinus s
  | .notANumber => false

/-- The greatest whole number that is not above a finite double. -/
def floor? (x : Float) : Option Int :=
  (magnitude? x).map fun (m, q) =>
    let n : Int := if isNegative x then -(m : Int) else m
    if 0 ≤ q then n * (Nat.pow 2 q.toNat : Int) else n / (Nat.pow 2 (-q).toNat : Int)

/-- The whole number nearest to the size of a finite double; a half goes up. -/
def nearestNat? (x : Float) : Option Nat :=
  (magnitude? x).map fun (m, q) =>
    if 0 ≤ q then m * Nat.pow 2 q.toNat
    else (2 * m + Nat.pow 2 (-q).toNat) / Nat.pow 2 ((-q).toNat + 1)

end PriceSignals.Binary64
