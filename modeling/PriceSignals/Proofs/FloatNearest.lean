/-
Module: PriceSignals.Proofs.FloatNearest
Purpose: Rounding takes the nearest double: no double is nearer to a number than the one it is
  rounded to. So whole numbers are converted to the doubles nearest to them.
Main exports:
  Binary64.IsNearest, Binary64.abs_roundEven_sub_le_of_int, Binary64.abs_rounded_sub_le_of_isDouble,
  Binary64.isNearest_ofInt
-/
import PriceSignals.Proofs.FloatOperations

namespace PriceSignals.Binary64

/-- A double is finite, and no finite double is nearer to a number. -/
def IsNearest (x : Float) (v : ℚ) : Prop :=
  ∃ a, value? x = some a ∧ ∀ y b, value? y = some b → |a - v| ≤ |b - v|

/-! ### Rounding -/

/-- No whole number is nearer than the rounded one. -/
theorem abs_roundEven_sub_le_of_int {y : ℚ} (nonneg : 0 ≤ y) (k : Int) :
    |(roundEven y : ℚ) - y| ≤ |k - y| := by
  have near := abs_roundEven_sub_le nonneg
  by_cases same : k = roundEven y
  · rw [same, Int.cast_natCast]
  · have apart : (1 : ℚ) ≤ |(k : ℚ) - roundEven y| := by
      have apart : 1 ≤ |k - roundEven y| := Int.one_le_abs (sub_ne_zero.mpr same)
      exact_mod_cast apart
    have triangle := abs_sub_le (k : ℚ) y (roundEven y)
    rw [abs_sub_comm y] at triangle
    linarith

/-- No double that is not negative is nearer than the rounded one. -/
theorem abs_rounded_sub_le_of_isDouble {v w : ℚ} (nonneg : 0 ≤ v) (double : IsDouble w) :
    |rounded v - v| ≤ |w - v| := by
  have unit : (0 : ℚ) < 2 ^ lastPlace v := zpow_pos (by norm_num) _
  have of_multiple (k : Int) : |rounded v - v| ≤ |k * 2 ^ lastPlace v - v| := by
    have near := abs_roundEven_sub_le_of_int (div_nonneg nonneg unit.le) k
    have scaled (a : ℚ) :
        |a * 2 ^ lastPlace v - v| = |a - v / 2 ^ lastPlace v| * 2 ^ lastPlace v := by
      rw [← abs_of_pos unit, ← abs_mul, abs_of_pos unit, sub_mul, div_mul_cancel₀ _ unit.ne']
    rw [rounded, scaled, scaled]
    exact mul_le_mul_of_nonneg_right near unit.le
  rcases eq_or_lt_of_le nonneg with rfl | pos
  · rw [rounded_zero, sub_zero, abs_zero]
    exact abs_nonneg _
  rcases double with rfl | ⟨m, q, canonical, rfl⟩
  · simpa using of_multiple 0
  rcases Int.lt_or_le q (lastPlace v) with finer | coarser
  · -- A finer double lies below the power of two under `v`, which is a multiple of the place.
    have least := canonical.least
    have place : lastPlace v = Int.log 2 v - 52 := by
      unfold lastPlace at *
      omega
    have power : (2 : ℚ) ^ (52 : Int) * 2 ^ lastPlace v ≤ v := by
      rw [← zpow_add_two, place, add_sub_cancel]
      exact_mod_cast Int.zpow_log_le_self (b := 2) (by norm_num) pos
    have below : (m : ℚ) * 2 ^ q ≤ 2 ^ (52 : Int) * 2 ^ lastPlace v := by
      have short : (m : ℚ) ≤ 2 ^ (53 : Int) := by exact_mod_cast canonical.lt.le
      calc (m : ℚ) * 2 ^ q ≤ 2 ^ (53 : Int) * 2 ^ q :=
            mul_le_mul_of_nonneg_right short (zpow_pos (by norm_num) q).le
        _ = 2 ^ (53 + q) := (zpow_add_two _ _).symm
        _ ≤ 2 ^ (52 + lastPlace v) := zpow_le_zpow_right₀ (by norm_num) (by omega)
        _ = 2 ^ (52 : Int) * 2 ^ lastPlace v := zpow_add_two _ _
    have whole : ((2 ^ 52 : Int) : ℚ) = 2 ^ (52 : Int) := by norm_num
    calc |rounded v - v| ≤ |2 ^ (52 : Int) * 2 ^ lastPlace v - v| := whole ▸ of_multiple (2 ^ 52)
      _ = v - 2 ^ (52 : Int) * 2 ^ lastPlace v := by
          rw [abs_sub_comm, abs_of_nonneg (sub_nonneg.mpr power)]
      _ ≤ v - m * 2 ^ q := sub_le_sub_left below v
      _ = |m * 2 ^ q - v| := by
          rw [abs_sub_comm, abs_of_nonneg (sub_nonneg.mpr (below.trans power))]
  · have multiple :
        (m : ℚ) * 2 ^ q = (m * 2 ^ (q - lastPlace v).toNat : Int) * 2 ^ lastPlace v := by
      push_cast
      rw [pow_toNat 2 (by omega), mul_assoc, ← zpow_add_two, sub_add_cancel]
    rw [multiple]
    exact of_multiple _

/-- No double of either sign is nearer than the rounded one: what is below zero is farther away than
its opposite. -/
theorem abs_rounded_sub_le_of_value? {v b : ℚ} (nonneg : 0 ≤ v) {y : Float}
    (value : value? y = some b) : |rounded v - v| ≤ |b - v| := by
  calc |rounded v - v| ≤ |(|b|) - v| := abs_rounded_sub_le_of_isDouble nonneg (isDouble_abs value)
    _ = |(|b|) - (|v|)| := by rw [abs_of_nonneg nonneg]
    _ ≤ |b - v| := abs_abs_sub_abs_le b v

/-- A whole number of a machine word is converted to the nearest double. -/
theorem isNearest_ofInt {n : Int} (word : n.natAbs < UInt64.size) :
    IsNearest (Float.ofInt n) n := by
  cases n with
  | ofNat k =>
      refine ⟨rounded k, value?_ofNat word, fun y b value => ?_⟩
      exact abs_rounded_sub_le_of_value? (Nat.cast_nonneg k) value
  | negSucc k =>
      refine ⟨-rounded (k + 1 : Nat), value?_neg (value?_ofNat word), fun y b value => ?_⟩
      have mirrored := abs_rounded_sub_le_of_value? (Nat.cast_nonneg (k + 1)) (value?_neg value)
      rw [Int.cast_negSucc]
      calc |-rounded (k + 1 : Nat) - -((k + 1 : Nat) : ℚ)|
          = |rounded (k + 1 : Nat) - (k + 1 : Nat)| := by rw [neg_sub_neg, abs_sub_comm]
        _ ≤ |-b - (k + 1 : Nat)| := mirrored
        _ = |b - -((k + 1 : Nat) : ℚ)| := by rw [sub_neg_eq_add, ← neg_add', abs_neg]

end PriceSignals.Binary64
