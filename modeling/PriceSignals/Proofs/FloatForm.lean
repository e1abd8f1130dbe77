/-
Module: PriceSignals.Proofs.FloatForm
Purpose: The form of doubles. A finite double has one mantissa and one exponent, a number of that
  form is stored without loss, and doubles with the same unpacked form are the same.
Main exports:
  Binary64.Canonical, Binary64.canonical_of_unpack, Binary64.unpack_pack_of_canonical,
  Binary64.unpack_pack_of_large, Binary64.eq_of_unpack_eq, Binary64.eq_of_isNaN
-/
import PriceSignals.Binary64
import Mathlib

namespace PriceSignals.Binary64

open Float.Model Float.Model.UnpackedFloat

/-! ### Finite doubles -/

/-- The mantissa and the exponent of a finite double: at most 53 bits, and all of them unless the
exponent is the least one. -/
structure Canonical (m : Nat) (q : Int) : Prop where
  pos : 0 < m
  lt : m < 2 ^ 53
  least : -1074 ≤ q
  greatest : q ≤ 971
  full : 2 ^ 52 ≤ m ∨ q = -1074

/-- The implicit bit stands above the stored mantissa. -/
theorem toNat_implicit (v : BitVec 52) : (1#1 ++ v).toNat = 2 ^ 52 + v.toNat := by
  rw [BitVec.toNat_append, ← Nat.shiftLeft_add_eq_or_of_lt v.isLt]
  rfl

/-- What a double is unpacked to is in canonical form. -/
theorem canonical_of_unpack {x : Float.Model} {s : Sign} {m : Nat} {q : Int} {pos : 0 < m}
    (h : x.unpack = .finite s m q pos) : Canonical m q := by
  have mantissa := (@unpackMantissa Format.binary64 x.toBits.toBitVec).isLt
  have exponent := (@unpackExponent Format.binary64 x.toBits.toBitVec).isLt
  change _ < 2 ^ 52 at mantissa
  change _ < 2 ^ 11 at exponent
  unfold Float.Model.unpack UnpackedFloat.unpack at h
  dsimp only at h
  split at h
  · split at h <;> cases h
  · rename_i below_top
    have below_top : (@unpackExponent Format.binary64 x.toBits.toBitVec).toNat ≠ 2047 :=
      fun top => below_top (BitVec.eq_of_toNat_eq top)
    split at h
    · rename_i bottom
      split at h
      · cases h
      · cases h
        constructor
        case pos => exact pos
        case lt => omega
        case least => rw [bottom]; decide
        case greatest => rw [bottom]; decide
        case full => rw [bottom]; right; rfl
    · rename_i above_bottom
      have above_bottom : (@unpackExponent Format.binary64 x.toBits.toBitVec).toNat ≠ 0 :=
        fun bottom => above_bottom (BitVec.eq_of_toNat_eq bottom)
      cases h
      have bias : ((Format.binary64.exponentBias : Int) + Format.binary64.mantissaBitsWithoutImplicit)
          = 1075 := rfl
      rw [bias]
      constructor
      case pos => exact pos
      case lt => rw [toNat_implicit]; omega
      case least => omega
      case greatest => omega
      case full => rw [toNat_implicit]; omega

/-- A mantissa of 53 bits is its implicit bit and the 52 bits that are stored. -/
theorem toNat_implicit_ofNat {m : Nat} (full : 2 ^ 52 ≤ m) (lt : m < 2 ^ 53) :
    (1#1 ++ BitVec.ofNat 52 m).toNat = m := by
  rw [toNat_implicit, BitVec.toNat_ofNat]
  omega

/-- The exponent as it is stored. -/
theorem biasedExponent_eq (q : Int) :
    q + (Format.binary64.exponentBias : Int) + (Format.binary64.mantissaBitsWithoutImplicit : Int)
      = q + 1075 := by
  rw [Int.add_assoc]
  rfl

/-- The word of a number whose mantissa is full stores its exponent. -/
theorem pack_of_full {s : Sign} {m : Nat} {q : Int} {pos : 0 < m} (h : Canonical m q)
    (full : 2 ^ 52 ≤ m) :
    UnpackedFloat.pack Format.binary64 (.finite s m q pos)
      = packComponents Format.binary64 s (BitVec.ofNat 11 (q + 1075).toNat) (BitVec.ofNat 52 m) := by
  have bits : m.log2 + 1 = Format.binary64.mantissaBits := by
    rw [(Nat.log2_eq_iff (Nat.ne_of_gt pos)).mpr ⟨full, h.lt⟩]
    rfl
  have least := h.least
  have greatest := h.greatest
  unfold UnpackedFloat.pack
  dsimp only
  rw [biasedExponent_eq, if_neg (show ¬ 2 ^ 11 ≤ (q + 1075).toNat + 1 by omega), if_pos bits]

/-- The word of a number whose mantissa is not full has the least exponent. -/
theorem pack_of_not_full {s : Sign} {m : Nat} {pos : 0 < m} (short : m < 2 ^ 52) :
    UnpackedFloat.pack Format.binary64 (.finite s m (-1074) pos)
      = packComponents Format.binary64 s 0#11 (BitVec.ofNat 52 m) := by
  have bits : m.log2 + 1 ≠ Format.binary64.mantissaBits := by
    have := (Nat.log2_lt (Nat.ne_of_gt pos)).mpr short
    change m.log2 + 1 ≠ 53
    omega
  unfold UnpackedFloat.pack
  dsimp only
  rw [if_neg (by decide), if_neg bits]

/-- A number in canonical form is stored without loss. -/
theorem unpack_pack_of_canonical {s : Sign} {m : Nat} {q : Int} {pos : 0 < m}
    (h : Canonical m q) : (Float.Model.pack (.finite s m q pos)).unpack = .finite s m q pos := by
  have least := h.least
  have greatest := h.greatest
  unfold Float.Model.unpack Float.Model.pack
  dsimp only
  by_cases full : 2 ^ 52 ≤ m
  · have stored : (BitVec.ofNat 11 (q + 1075).toNat).toNat = (q + 1075).toNat := by
      rw [BitVec.toNat_ofNat, Nat.mod_eq_of_lt (by omega)]
    have below_top : BitVec.ofNat 11 (q + 1075).toNat ≠ -1#11 := by
      intro top
      have := stored.symm.trans (congrArg BitVec.toNat top)
      change _ = 2047 at this
      omega
    have above_bottom : BitVec.ofNat 11 (q + 1075).toNat ≠ 0#11 := by
      intro bottom
      have := stored.symm.trans (congrArg BitVec.toNat bottom)
      change _ = 0 at this
      omega
    rw [pack_of_full h full]
    simp only [UnpackedFloat.unpack, unpackMantissa_packComponents, unpackExponent_packComponents,
      unpackSign_packComponents, Sign.ofBitVec_toBitVec, below_top, above_bottom, if_false, stored,
      toNat_implicit_ofNat full h.lt]
    congr 1
    change ((q + 1075).toNat : Int) - 1075 = q
    omega
  · obtain rfl : q = -1074 := h.full.resolve_left full
    have short : m < 2 ^ 52 := Nat.lt_of_not_le full
    have stored : (BitVec.ofNat 52 m).toNat = m := by
      rw [BitVec.toNat_ofNat, Nat.mod_eq_of_lt short]
    have nonzero : BitVec.ofNat 52 m ≠ 0#52 := by
      intro zero
      exact Nat.ne_of_gt pos (stored.symm.trans (congrArg BitVec.toNat zero))
    rw [pack_of_not_full short]
    simp only [UnpackedFloat.unpack, unpackMantissa_packComponents, unpackExponent_packComponents,
      unpackSign_packComponents, Sign.ofBitVec_toBitVec, nonzero, stored]
    rfl

theorem unpack_pack_zero (s : Sign) : (Float.Model.pack (.zero s)).unpack = .zero s := by
  cases s <;> rfl

theorem unpack_pack_notANumber : (Float.Model.pack .notANumber).unpack = .notANumber := rfl

theorem unpack_pack_infinity (s : Sign) : (Float.Model.pack (.infinity s)).unpack = .infinity s := by
  cases s <;> rfl

/-- What a double is unpacked to is stored without loss. -/
theorem unpack_pack_unpack (x : Float) :
    (Float.Model.pack x.toModel.unpack).unpack = x.toModel.unpack := by
  cases form : x.toModel.unpack with
  | notANumber => exact unpack_pack_notANumber
  | infinity s => exact unpack_pack_infinity s
  | zero s => exact unpack_pack_zero s
  | finite s m q pos => exact unpack_pack_of_canonical (canonical_of_unpack form)

/-- A number whose exponent is too large is stored as an infinity. -/
theorem unpack_pack_of_large {s : Sign} {m : Nat} {q : Int} {pos : 0 < m} (large : 972 ≤ q) :
    (Float.Model.pack (.finite s m q pos)).unpack = .infinity s := by
  have packed : UnpackedFloat.pack Format.binary64 (.finite s m q pos)
      = UnpackedFloat.pack Format.binary64 (.infinity s) := by
    unfold UnpackedFloat.pack
    dsimp only
    rw [biasedExponent_eq, if_pos (show 2 ^ 11 ≤ (q + 1075).toNat + 1 by omega)]
  rw [← unpack_pack_infinity s]
  unfold Float.Model.unpack Float.Model.pack
  dsimp only
  rw [packed]

/-- Doubles with the same unpacked form are the same. -/
theorem eq_of_unpack_eq {x y : Float} (h : x.toModel.unpack = y.toModel.unpack) : x = y := by
  have bits := (unpack_inj_of_valid x.toModel.valid y.toModel.valid).mp h
  exact Float.toBits_inj.mp (UInt64.toBitVec_inj.mp bits)

/-- There is one NaN only. -/
theorem eq_of_isNaN {x y : Float} (hx : x.isNaN = true) (hy : y.isNaN = true) : x = y := by
  change x.toModel.unpack.isNaN = true at hx
  change y.toModel.unpack.isNaN = true at hy
  apply eq_of_unpack_eq
  cases form : x.toModel.unpack with
  | notANumber =>
      cases form' : y.toModel.unpack with
      | notANumber => rfl
      | _ => rw [form'] at hy; cases hy
  | _ => rw [form] at hx; cases hx

end PriceSignals.Binary64
