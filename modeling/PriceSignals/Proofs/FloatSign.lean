/-
Module: PriceSignals.Proofs.FloatSign
Purpose: Which doubles are below zero. A sum of numbers that are not below zero is not below zero,
  and neither is such a number times a count or over one.
Main exports:
  Binary64.IsBelowZero, Binary64.IsUnsigned, Binary64.lt_zero_iff, Binary64.not_add_lt_zero,
  Binary64.not_div_lt_zero, Binary64.not_mul_ofNat_lt_zero, Binary64.not_div_ofNat_lt_zero,
  Series.total_induction, Series.not_total_lt_zero
-/
import PriceSignals.Proofs.FloatForm
import PriceSignals.Proofs.FloatOrder
import PriceSignals.Series

namespace PriceSignals

namespace Binary64

open Float.Model Float.Model.UnpackedFloat

/-! ### Signs of unpacked numbers -/

/-- The sign of a number; NaN has none. -/
def sign? : UnpackedFloat → Option Sign
  | .infinity s => some s
  | .zero s => some s
  | .finite s _ _ _ => some s
  | .notANumber => none

/-- A number below zero, which the negative zero is not. -/
def IsBelowZero : UnpackedFloat → Prop
  | .infinity s => s = .negative
  | .finite s _ _ _ => s = .negative
  | .zero _ => False
  | .notANumber => False

/-- A number without a minus sign, or NaN. -/
def IsUnsigned (u : UnpackedFloat) : Prop := sign? u ≠ some .negative

theorem IsBelowZero.sign? {u : UnpackedFloat} (h : IsBelowZero u) :
    sign? u = some .negative := by
  cases u with
  | infinity s => exact congrArg some h
  | finite s m q pos => exact congrArg some h
  | zero s => cases h
  | notANumber => cases h

/-! ### Storing keeps the sign -/

/-- A word is unpacked to a number with the sign of its bit, or to NaN. -/
theorem sign?_unpack {spec : Format} {b : BitVec spec.numBits} {s : Sign}
    (h : sign? (UnpackedFloat.unpack spec b) = some s) : s = Sign.ofBitVec (unpackSign b) := by
  unfold UnpackedFloat.unpack at h
  dsimp only at h
  split at h
  · split at h
    · exact (Option.some.inj h).symm
    · cases h
  · split at h
    · split at h <;> exact (Option.some.inj h).symm
    · exact (Option.some.inj h).symm

/-- However a number is rounded or cut off when it is stored, it keeps its sign. -/
theorem sign?_of_unpack_pack {u : UnpackedFloat} {s : Sign}
    (h : sign? (Float.Model.pack u).unpack = some s) : sign? u = some s := by
  cases u with
  | notANumber => cases h
  | infinity t => rwa [unpack_pack_infinity] at h
  | zero t => rwa [unpack_pack_zero] at h
  | finite t m q pos =>
      have stored : unpackSign (UnpackedFloat.pack Format.binary64 (.finite t m q pos))
          = t.toBitVec := by
        unfold UnpackedFloat.pack
        dsimp only
        split
        · exact unpackSign_packComponents ..
        · split <;> exact unpackSign_packComponents ..
      have bit : s = Sign.ofBitVec (unpackSign _) := sign?_unpack h
      rw [bit]
      exact congrArg some ((Sign.ofBitVec_toBitVec t).symm.trans (congrArg _ stored.symm))

theorem IsBelowZero.of_unpack_pack {u : UnpackedFloat}
    (h : IsBelowZero (Float.Model.pack u).unpack) : IsBelowZero u := by
  have sign : Binary64.sign? u = some .negative := sign?_of_unpack_pack h.sign?
  cases u with
  | notANumber => cases sign
  | infinity s => exact Option.some.inj sign
  | zero s =>
      rw [unpack_pack_zero] at h
      cases h
  | finite s m q pos => exact Option.some.inj sign

theorem IsUnsigned.unpack_pack {u : UnpackedFloat} (h : IsUnsigned u) :
    IsUnsigned (Float.Model.pack u).unpack :=
  fun sign => h (sign?_of_unpack_pack sign)

/-! ### Operations -/

theorem sign?_roundWithAccuracy (spec : Format) (s : Sign) (m : Nat) (e : Int) (a : Accuracy) :
    sign? (roundWithAccuracy spec s m e a) = some s := by
  unfold roundWithAccuracy
  dsimp only
  split <;> rfl

/-- A whole number that is not below zero is not made so by rounding. -/
theorem isUnsigned_normalize (spec : Format) {m : Int} (e : Int) (h : 0 ≤ m) :
    IsUnsigned (UnpackedFloat.normalize spec m e .positive) := by
  unfold UnpackedFloat.normalize IsUnsigned
  split
  · rename_i below
    rw [Int.compare_eq_lt] at below
    omega
  · simp [sign?]
  · simp [UnpackedFloat.round, sign?_roundWithAccuracy]

/-- The sum of two numbers that are not below zero is not below zero. Only two finite numbers have
to be added at all, and then both are positive. -/
theorem not_isBelowZero_add (spec : Format) {u v : UnpackedFloat} (hu : ¬ IsBelowZero u)
    (hv : ¬ IsBelowZero v) : ¬ IsBelowZero (UnpackedFloat.add spec u v) := by
  cases u with
  | notANumber => exact id
  | infinity s =>
      cases v with
      | infinity t =>
          cases s with
          | negative => exact absurd rfl hu
          | positive =>
              cases t with
              | negative => exact absurd rfl hv
              | positive => exact hu
      | notANumber => exact id
      | zero t => exact hu
      | finite t n f pos => exact hu
  | zero s =>
      cases v with
      | zero t => cases s <;> cases t <;> exact id
      | notANumber => exact id
      | infinity t => exact hv
      | finite t n f pos => exact hv
  | finite s m e pos =>
      cases v with
      | notANumber => exact id
      | infinity t => exact hv
      | zero t => exact hu
      | finite t n f pos' =>
          cases s with
          | negative => exact absurd rfl hu
          | positive =>
              cases t with
              | negative => exact absurd rfl hv
              | positive =>
                  intro below
                  exact isUnsigned_normalize spec (min e f) (Int.natCast_nonneg _) below.sign?

/-- A number that is not below zero over one without a minus sign is not below zero. -/
theorem not_isBelowZero_div (spec : Format) {u v : UnpackedFloat} (hu : ¬ IsBelowZero u)
    (hv : IsUnsigned v) : ¬ IsBelowZero (UnpackedFloat.div spec u v) := by
  cases v with
  | notANumber => cases u <;> exact id
  | infinity t => cases u <;> exact id
  | zero t =>
      cases t with
      | negative => exact absurd rfl hv
      | positive =>
          cases u with
          | infinity s => cases s <;> exact hu
          | finite s m e pos => cases s <;> exact hu
          | _ => exact id
  | finite t n f pos' =>
      cases t with
      | negative => exact absurd rfl hv
      | positive =>
          cases u with
          | infinity s => cases s <;> exact hu
          | finite s m e pos =>
              cases s with
              | negative => exact absurd rfl hu
              | positive =>
                  intro below
                  have sign := below.sign?
                  rw [UnpackedFloat.div, sign?_roundWithAccuracy] at sign
                  cases sign
          | _ => exact id

/-! ### Counts -/

/-- A product has the product of the signs, or is NaN. -/
theorem sign?_mul {spec : Format} {u v : UnpackedFloat} {s : Sign}
    (h : sign? (UnpackedFloat.mul spec u v) = some s) :
    ∃ a b, sign? u = some a ∧ sign? v = some b ∧ s = a * b := by
  cases u with
  | finite a m e pos =>
      cases v with
      | finite b n f pos' =>
          rw [UnpackedFloat.mul, sign?_roundWithAccuracy] at h
          exact ⟨a, b, rfl, rfl, (Option.some.inj h).symm⟩
      | _ => simp_all [UnpackedFloat.mul, sign?]
  | _ => cases v <;> simp_all [UnpackedFloat.mul, sign?]

theorem isUnsigned_mul (spec : Format) {u v : UnpackedFloat} (hu : IsUnsigned u)
    (hv : IsUnsigned v) : IsUnsigned (UnpackedFloat.mul spec u v) := by
  intro negative
  obtain ⟨a, b, ha, hb, product⟩ := sign?_mul negative
  cases a with
  | negative => exact hu ha
  | positive =>
      cases b with
      | negative => exact hv hb
      | positive => cases product

/-- A product with a number without a minus sign is below zero only if the other factor is. -/
theorem not_isBelowZero_mul (spec : Format) {u v : UnpackedFloat} (hu : ¬ IsBelowZero u)
    (hv : IsUnsigned v) : ¬ IsBelowZero (UnpackedFloat.mul spec u v) := by
  cases u with
  | zero s => cases v <;> exact id
  | notANumber => exact id
  | infinity s =>
      cases s with
      | negative => exact absurd rfl hu
      | positive =>
          have unsigned : IsUnsigned (.infinity .positive) := by simp [IsUnsigned, sign?]
          exact fun below => isUnsigned_mul spec unsigned hv below.sign?
  | finite s m q pos =>
      cases s with
      | negative => exact absurd rfl hu
      | positive =>
          have unsigned : IsUnsigned (.finite .positive m q pos) := by simp [IsUnsigned, sign?]
          exact fun below => isUnsigned_mul spec unsigned hv below.sign?

/-- A count has no minus sign. Small counts are multiplied by one, large ones are rounded. -/
theorem isUnsigned_ofNat (n : Nat) : IsUnsigned (Float.ofNat n).toModel.unpack := by
  unfold Float.ofNat OfScientific.ofScientific instOfScientificFloat Float.ofScientific
  dsimp only
  split
  · have small : IsUnsigned (n.toUInt64.toFloat).toModel.unpack :=
      IsUnsigned.unpack_pack (isUnsigned_normalize _ 0 (Int.natCast_nonneg _))
    have one : IsUnsigned Float.exactlyRepresentablePowersOfTen[0].toModel.unpack := by
      have form : Float.exactlyRepresentablePowersOfTen[0].toModel.unpack
          = .finite .positive (2 ^ 52) (-52) (by decide) := rfl
      rw [form]
      exact nofun
    exact IsUnsigned.unpack_pack (isUnsigned_mul _ small one)
  · refine IsUnsigned.unpack_pack ?_
    unfold UnpackedFloat.ofScientific
    split
    · exact nofun
    · rw [if_neg (by decide), if_neg (by simp), if_pos (by decide)]
      exact isUnsigned_mul _ nofun nofun

/-! ### Doubles -/

theorem lt_zero_iff {x : Float} : x < 0 ↔ IsBelowZero x.toModel.unpack := by
  have zero : (0 : Float).toModel.unpack = .zero .positive := rfl
  rw [lt_iff_ordering?, ordering?, zero]
  cases x.toModel.unpack with
  | notANumber => simp [UnpackedFloat.compare, IsBelowZero]
  | infinity s => cases s <;> simp [UnpackedFloat.compare, IsBelowZero]
  | zero s => simp [UnpackedFloat.compare, IsBelowZero]
  | finite s m q pos => cases s <;> simp [UnpackedFloat.compare, IsBelowZero]

/-- A number below a zero is below zero. -/
theorem lt_zero_of_lt {x y : Float} {s : Sign} (hy : y.toModel.unpack = .zero s) (h : x < y) :
    x < 0 := by
  rw [lt_iff_ordering?, ordering?, hy] at h
  rw [lt_zero_iff]
  generalize x.toModel.unpack = u at h ⊢
  cases u with
  | notANumber => cases h
  | infinity t => cases t <;> first | rfl | cases h
  | zero t => cases h
  | finite t m q pos => cases t <;> first | rfl | cases h

/-- No number is below NaN. -/
theorem not_lt_of_unpack_eq {x y : Float} (hy : y.toModel.unpack = .notANumber) : ¬ x < y := by
  rw [lt_iff_ordering?, ordering?, hy]
  cases x.toModel.unpack <;> simp [UnpackedFloat.compare]

/-- Zero over anything is a zero, or NaN. A number below it is below zero. -/
theorem lt_zero_of_lt_zero_div {x y : Float} (h : x < -0.0 / y) : x < 0 := by
  have quotient : (-0.0 / y).toModel.unpack = (Float.Model.pack
      (UnpackedFloat.div .binary64 (.zero .negative) y.toModel.unpack)).unpack := rfl
  cases hy : y.toModel.unpack with
  | notANumber =>
      rw [hy] at quotient
      exact absurd h (not_lt_of_unpack_eq (quotient.trans unpack_pack_notANumber))
  | zero t =>
      rw [hy] at quotient
      exact absurd h (not_lt_of_unpack_eq (quotient.trans unpack_pack_notANumber))
  | infinity t =>
      rw [hy] at quotient
      exact lt_zero_of_lt (quotient.trans (unpack_pack_zero _)) h
  | finite t m q pos =>
      rw [hy] at quotient
      exact lt_zero_of_lt (quotient.trans (unpack_pack_zero _)) h

theorem not_add_lt_zero {x y : Float} (hx : ¬ x < 0) (hy : ¬ y < 0) : ¬ x + y < 0 := by
  rw [lt_zero_iff] at *
  exact fun below => not_isBelowZero_add _ hx hy below.of_unpack_pack

/-- A quotient of numbers that are not below zero is not below zero, unless the divisor is a zero. -/
theorem not_div_lt_zero {x y : Float} (hx : ¬ x < 0) (hy : ¬ y < 0) (nonzero : (y == 0) = false) :
    ¬ x / y < 0 := by
  have opened : (y == 0) = (ordering? y 0 == some .eq) := rfl
  have zero : (0 : Float).toModel.unpack = .zero .positive := rfl
  rw [lt_zero_iff] at *
  have unsigned : IsUnsigned y.toModel.unpack := by
    cases form : y.toModel.unpack with
    | zero s =>
        rw [opened, ordering?, form, zero] at nonzero
        cases nonzero
    | notANumber => simp [IsUnsigned, sign?]
    | infinity s =>
        rw [form] at hy
        exact fun sign => hy (Option.some.inj sign)
    | finite s m q pos =>
        rw [form] at hy
        exact fun sign => hy (Option.some.inj sign)
  exact fun below => not_isBelowZero_div _ hx unsigned below.of_unpack_pack

/-- A number that is not below zero is not so times a count or over one. -/
theorem not_mul_ofNat_lt_zero {x : Float} (hx : ¬ x < 0) (n : Nat) : ¬ x * Float.ofNat n < 0 := by
  rw [lt_zero_iff] at *
  exact fun below => not_isBelowZero_mul _ hx (isUnsigned_ofNat n) below.of_unpack_pack

theorem not_div_ofNat_lt_zero {x : Float} (hx : ¬ x < 0) (n : Nat) : ¬ x / Float.ofNat n < 0 := by
  rw [lt_zero_iff] at *
  exact fun below => not_isBelowZero_div _ hx (isUnsigned_ofNat n) below.of_unpack_pack

end Binary64

/-- What holds of the empty sum, and of a sum after each further number, holds of all sums. -/
theorem Series.total_induction {holds : Float → Prop} {xs : List Float} (empty : holds (-0.0))
    (add : ∀ acc x, holds acc → x ∈ xs → holds (acc + x)) : holds (total xs) := by
  have grows (acc : Float) (hacc : holds acc) : holds (xs.foldl (· + ·) acc) := by
    induction xs generalizing acc with
    | nil => exact hacc
    | cons x xs ih =>
        have rest : ∀ acc y, holds acc → y ∈ xs → holds (acc + y) :=
          fun acc y hacc member => add acc y hacc (List.mem_cons_of_mem x member)
        exact ih rest (acc + x) (add acc x hacc List.mem_cons_self)
  exact grows (-0.0) empty

/-- A sum of numbers that are not below zero is not below zero. -/
theorem Series.not_total_lt_zero {xs : List Float} (h : ∀ x ∈ xs, ¬ x < 0) : ¬ total xs < 0 :=
  @total_induction (fun x => ¬ x < 0) xs (by decide) fun _ x hacc member =>
    Binary64.not_add_lt_zero hacc (h x member)

end PriceSignals
