/-
Module: PriceSignals.Proofs.FloatOrder
Purpose: The order of doubles. Numbers that are not NaN are totally ordered, the two zeros being
  equal, and NaN stands in no relation to anything.
Main exports:
  Binary64.ordering?, Binary64.not_le_of_lt, Binary64.not_lt_of_lt, Binary64.lt_of_not_le,
  Binary64.not_lt_iff_le, Binary64.isNaN_eq_false_of_isFinite
-/
import PriceSignals.Binary64

namespace PriceSignals.Binary64

open Float.Model

/-! ### Comparing unpacked numbers -/

/-- Comparing the other way around turns the answer around. -/
theorem compare_swap (u v : UnpackedFloat) : v.compare u = (u.compare v).map Ordering.swap := by
  cases u with
  | notANumber => cases v <;> rfl
  | infinity s =>
      cases v with
      | infinity t => cases s <;> cases t <;> rfl
      | notANumber => rfl
      | zero t => cases s <;> rfl
      | finite t m e pos => cases s <;> rfl
  | zero s =>
      cases v with
      | infinity t => cases t <;> rfl
      | notANumber => rfl
      | zero t => rfl
      | finite t m e pos => cases t <;> rfl
  | finite s m e pos =>
      cases v with
      | infinity t => cases t <;> rfl
      | notANumber => rfl
      | zero t => cases s <;> rfl
      | finite t n f pos' =>
          have exponents : compare f e = (compare e f).swap := (Int.compare_swap e f).symm
          have mantissas : compare n m = (compare m n).swap := (Nat.compare_swap m n).symm
          have sizes : (compare f e).then (compare n m)
              = ((compare e f).then (compare m n)).swap := by
            rw [exponents, mantissas, Ordering.swap_then]
          cases s with
          | positive =>
              cases t with
              | positive => exact congrArg some sizes
              | negative => rfl
          | negative =>
              cases t with
              | positive => rfl
              | negative => exact congrArg (fun o => some o.swap) sizes

/-- Numbers can always be compared. -/
theorem exists_compare {u v : UnpackedFloat} (hu : u.isNaN = false) (hv : v.isNaN = false) :
    ∃ o, u.compare v = some o := by
  cases u with
  | notANumber => cases hu
  | infinity s =>
      cases v with
      | notANumber => cases hv
      | infinity t => exact ⟨_, rfl⟩
      | zero t => cases s <;> exact ⟨_, rfl⟩
      | finite t m e pos => cases s <;> exact ⟨_, rfl⟩
  | zero s =>
      cases v with
      | notANumber => cases hv
      | infinity t => cases t <;> exact ⟨_, rfl⟩
      | zero t => exact ⟨_, rfl⟩
      | finite t m e pos => cases t <;> exact ⟨_, rfl⟩
  | finite s m e pos =>
      cases v with
      | notANumber => cases hv
      | infinity t => cases t <;> exact ⟨_, rfl⟩
      | zero t => cases s <;> exact ⟨_, rfl⟩
      | finite t n f pos' => cases s <;> cases t <;> exact ⟨_, rfl⟩

/-! ### Doubles -/

/-- How two doubles compare, if neither is NaN. -/
def ordering? (a b : Float) : Option Ordering := a.toModel.unpack.compare b.toModel.unpack

theorem lt_iff_ordering? {a b : Float} : a < b ↔ ordering? a b = some .lt := by
  have opened : a < b ↔ (ordering? a b == some .lt) = true := decide_eq_true_iff
  rw [opened, beq_iff_eq]

theorem le_iff_ordering? {a b : Float} :
    a ≤ b ↔ ordering? a b = some .lt ∨ ordering? a b = some .eq := by
  have opened : a ≤ b ↔ (ordering? a b).any (·.isLE) = true := decide_eq_true_iff
  rw [opened]
  cases ordering? a b with
  | none => simp
  | some o => cases o <;> simp

theorem ordering?_swap (a b : Float) : ordering? b a = (ordering? a b).map Ordering.swap :=
  compare_swap a.toModel.unpack b.toModel.unpack

theorem not_le_of_lt {a b : Float} (h : a < b) : ¬ b ≤ a := by
  have below := lt_iff_ordering?.mp h
  rw [le_iff_ordering?, ordering?_swap a b, below]
  simp

theorem not_lt_of_lt {a b : Float} (h : a < b) : ¬ b < a := by
  have below := lt_iff_ordering?.mp h
  rw [lt_iff_ordering?, ordering?_swap a b, below]
  simp

/-- Of two numbers, one that is not at most the other is above it. -/
theorem lt_of_not_le {a b : Float} (ha : a.isNaN = false) (hb : b.isNaN = false) (h : ¬ a ≤ b) :
    b < a := by
  obtain ⟨o, compared⟩ : ∃ o, ordering? a b = some o := exists_compare ha hb
  rw [le_iff_ordering?, compared] at h
  rw [lt_iff_ordering?, ordering?_swap a b, compared]
  cases o <;> simp_all

/-- Of two numbers, one is not below the other exactly where the other is at most it. -/
theorem not_lt_iff_le {a b : Float} (ha : a.isNaN = false) (hb : b.isNaN = false) :
    ¬ a < b ↔ b ≤ a := by
  constructor
  · intro h
    by_cases upto : b ≤ a
    · exact upto
    · exact absurd (lt_of_not_le hb ha upto) h
  · intro h below
    exact not_le_of_lt below h

/-- A finite double is a number. -/
theorem isNaN_eq_false_of_isFinite {x : Float} (h : x.isFinite = true) : x.isNaN = false := by
  change x.toModel.unpack.isFinite = true at h
  change x.toModel.unpack.isNaN = false
  cases hx : x.toModel.unpack with
  | notANumber =>
      rw [hx] at h
      cases h
  | _ => rfl

end PriceSignals.Binary64
