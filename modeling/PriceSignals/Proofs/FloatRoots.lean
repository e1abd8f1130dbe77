/-
Module: PriceSignals.Proofs.FloatRoots
Purpose: Square roots of doubles. A root is never below zero, and that of a finite double that is
  not below zero is finite.
Main exports:
  Binary64.not_sqrt_lt_zero, Binary64.exists_represents, Binary64.exists_sqrt_eq,
  Binary64.HasValue.sqrt
-/
import PriceSignals.Proofs.FloatOperations
import PriceSignals.Proofs.FloatSign

namespace PriceSignals.Binary64

open Float.Model Float.Model.UnpackedFloat

theorem sqrt_unpack (x : Float) : x.sqrt.toModel.unpack = (Float.Model.pack
    (UnpackedFloat.sqrt .binary64 x.toModel.unpack)).unpack := rfl

/-! ### The sign of a root -/

/-- Roots of zeros are zeros, and those of numbers below zero are NaN. -/
theorem not_sqrt_lt_zero (x : Float) : ¬ x.sqrt < 0 := by
  rw [lt_zero_iff, sqrt_unpack]
  intro below
  have below := below.of_unpack_pack
  cases form : x.toModel.unpack with
  | notANumber =>
      rw [form] at below
      exact below
  | zero s =>
      rw [form] at below
      exact below
  | infinity s =>
      rw [form] at below
      cases s <;> cases below
  | finite s m q pos =>
      rw [form] at below
      cases s with
      | negative => exact below
      | positive =>
          have sign := below.sign?
          rw [UnpackedFloat.sqrt, sign?_roundWithAccuracy] at sign
          cases sign

/-! ### The size of a root -/

/-- A mantissa with residual bits stands for some number between it and the next one. -/
theorem exists_represents (m : Nat) (accuracy : Accuracy) :
    ∃ y : ℚ, Represents (ExtendedMantissa.ofMantissaAndAccuracy m accuracy) y ∧
      m ≤ y ∧ y < m + 1 := by
  cases accuracy with
  | exact => exact ⟨m, rfl, le_rfl, lt_add_one _⟩
  | inexact o =>
      cases o with
      | lt =>
          refine ⟨m + 1 / 4, ?_, by linarith, by linarith⟩
          change (m : ℚ) < m + 1 / 4 ∧ (m : ℚ) + 1 / 4 < m + 1 / 2
          constructor <;> linarith
      | eq => exact ⟨m + 1 / 2, rfl, by linarith, by linarith⟩
      | gt =>
          refine ⟨m + 3 / 4, ?_, by linarith, by linarith⟩
          change (m : ℚ) + 1 / 2 < m + 3 / 4 ∧ (m : ℚ) + 3 / 4 < m + 1
          constructor <;> linarith

/-- The place to which a root is computed: so many bits that 53 are left of the root. -/
def rootPlace (m : Nat) (q : Int) : Int :=
  min (q / 2) (max (((m.log2 : Int) + 1 + q + 1) / 2 - 53) (-1074))

theorem sqrtCore_eq (m : Nat) (q : Int) :
    ∃ accuracy, sqrtCore .binary64 m q
      = (Nat.sqrt (m <<< (q - 2 * rootPlace m q).toNat), rootPlace m q, accuracy) :=
  ⟨_, rfl⟩

/-- The root of a mantissa has 53 bits, unless it is computed to the least place or beyond. -/
theorem le_sqrt_radicand {m : Nat} {q : Int} (pos : 0 < m) :
    rootPlace m q ≤ -1074 ∨ 2 ^ 52 ≤ Nat.sqrt (m * 2 ^ (q - 2 * rootPlace m q).toNat) := by
  by_cases bottom : rootPlace m q ≤ -1074
  · exact .inl bottom
  · right
    have bits : 104 ≤ m.log2 + (q - 2 * rootPlace m q).toNat := by
      unfold rootPlace at *
      omega
    rw [Nat.le_sqrt]
    calc 2 ^ 52 * 2 ^ 52 = 2 ^ 104 := by norm_num
      _ ≤ 2 ^ (m.log2 + (q - 2 * rootPlace m q).toNat) := Nat.pow_le_pow_right (by decide) bits
      _ = 2 ^ m.log2 * 2 ^ (q - 2 * rootPlace m q).toNat := pow_add _ _ _
      _ ≤ m * 2 ^ (q - 2 * rootPlace m q).toNat :=
        Nat.mul_le_mul_right _ (Nat.log2_self_le (Nat.ne_of_gt pos))

/-- The radicand of a double is far from being too large, even before the root is taken. -/
theorem inRange_of_le_radicand {m : Nat} {q : Int} (canonical : Canonical m q) {v : ℚ}
    (h : v ≤ 2 * (m * 2 ^ (q - 2 * rootPlace m q).toNat : Nat) * 2 ^ rootPlace m q) :
    InRange v := by
  have greatest := canonical.greatest
  have exponent : (53 : Int) + (1 + (q - rootPlace m q)) ≤ 1000 := by
    unfold rootPlace
    omega
  have shift : ((q - 2 * rootPlace m q).toNat : Int) + rootPlace m q = q - rootPlace m q := by
    unfold rootPlace
    omega
  have short : (m : ℚ) < 2 ^ (53 : Int) := by exact_mod_cast canonical.lt
  have units : (0 : ℚ) < 2 ^ (1 + (q - rootPlace m q)) := zpow_pos (by norm_num) _
  refine h.trans_lt ?_
  calc (2 : ℚ) * (m * 2 ^ (q - 2 * rootPlace m q).toNat : Nat) * 2 ^ rootPlace m q
      = m * 2 ^ (1 + (q - rootPlace m q)) := by
        rw [zpow_add_two, ← shift, zpow_add_two, zpow_natCast]
        push_cast
        ring
    _ < 2 ^ (53 : Int) * 2 ^ (1 + (q - rootPlace m q)) := mul_lt_mul_of_pos_right short units
    _ = 2 ^ (53 + (1 + (q - rootPlace m q))) := (zpow_add_two _ _).symm
    _ ≤ 2 ^ (1000 : Int) := zpow_le_zpow_right₀ (by norm_num) exponent

/-- The root of a positive double is rounded from a number that is in range. -/
theorem exists_sqrt_eq {m : Nat} {q : Int} {pos : 0 < m} (canonical : Canonical m q) :
    ∃ v, 0 < v ∧ InRange v ∧
      UnpackedFloat.sqrt .binary64 (.finite .positive m q pos) = nearest .positive v := by
  obtain ⟨accuracy, core⟩ := sqrtCore_eq m q
  have bits := @le_sqrt_radicand m q pos
  have small := @inRange_of_le_radicand m q canonical
  have root_le := Nat.sqrt_le_self (m * 2 ^ (q - 2 * rootPlace m q).toNat)
  have root_pos : 0 < Nat.sqrt (m * 2 ^ (q - 2 * rootPlace m q).toNat) :=
    Nat.sqrt_pos.mpr (Nat.mul_pos pos (Nat.two_pow_pos _))
  rw [Nat.shiftLeft_eq] at core
  generalize Nat.sqrt (m * 2 ^ (q - 2 * rootPlace m q).toNat) = root at core bits root_le root_pos
  generalize m * 2 ^ (q - 2 * rootPlace m q).toNat = radicand at small root_le
  generalize rootPlace m q = e at core bits small
  obtain ⟨y, represents, low, high⟩ := exists_represents root accuracy
  have unit : (0 : ℚ) < 2 ^ e := zpow_pos (by norm_num) e
  have one : (1 : ℚ) ≤ root := by exact_mod_cast root_pos
  have most : (root : ℚ) ≤ radicand := by exact_mod_cast root_le
  have y_pos : 0 < y := by linarith
  refine ⟨y * 2 ^ e, mul_pos y_pos unit, ?_, ?_⟩
  case refine_1 => exact small (mul_le_mul_of_nonneg_right (by linarith) unit.le)
  case refine_2 =>
    have enough : e ≤ -1074 ∨ (2 : ℚ) ^ (e + 52) ≤ y * 2 ^ e := by
      refine bits.imp_right fun long => ?_
      have long : (2 : ℚ) ^ (52 : Int) ≤ root := by exact_mod_cast long
      rw [add_comm, zpow_add_two]
      exact mul_le_mul_of_nonneg_right (long.trans low) unit.le
    rw [UnpackedFloat.sqrt, core]
    exact roundWithAccuracy_eq represents y_pos (.inl root_pos)
      (le_lastPlace (mul_pos y_pos unit) enough)

/-- A root of a double with a value that is not below zero has such a value. -/
theorem HasValue.sqrt {x : Float} {a : ℚ} (h : HasValue x a) : ∃ b, HasValue x.sqrt b := by
  cases h with
  | zero s form =>
      have root := sqrt_unpack x
      rw [form] at root
      exact ⟨0, .zero s (root.trans (unpack_pack_zero s))⟩
  | positive m q pos form =>
      obtain ⟨v, above, inRange, near⟩ := @exists_sqrt_eq m q pos (canonical_of_unpack form)
      have root := sqrt_unpack x
      rw [form, near] at root
      have level := level?_of_nearest above root
      rw [signed_positive] at level
      exact ⟨rounded v, hasValue_of_stored level above.le inRange⟩

end PriceSignals.Binary64
