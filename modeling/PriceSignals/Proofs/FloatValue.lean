/-
Module: PriceSignals.Proofs.FloatValue
Purpose: The exact values of doubles that are not below zero, and numbers rounded to such values.
  The doubles are ordered as their values are, and a number that is rounded too far up is stored as
  an infinity.
Main exports:
  Binary64.HasValue, Binary64.InRange, Binary64.tooLarge, Binary64.IsDouble, Binary64.rounded,
  Binary64.rounded_of_isDouble, Binary64.abs_rounded_sub_le, Binary64.nearest_cases,
  Binary64.HasValue.lt_iff, Binary64.HasValue.le_iff, Binary64.hasValue_ofNat,
  Binary64.HasValue.of_beq
-/
import PriceSignals.Proofs.FloatArithmetic
import PriceSignals.Proofs.FloatOrder

namespace PriceSignals.Binary64

open Float.Model Float.Model.UnpackedFloat

/-! ### Values -/

/-- The value of a double that is not below zero. Both zeros have the value zero; infinities and NaN
have no value. -/
inductive HasValue (x : Float) : ℚ → Prop where
  | zero (s : Sign) (form : x.toModel.unpack = .zero s) : HasValue x 0
  | positive (m : Nat) (q : Int) (pos : 0 < m)
      (form : x.toModel.unpack = .finite .positive m q pos) : HasValue x (m * 2 ^ q)

theorem mantissa_pos {m : Nat} (q : Int) (pos : 0 < m) : (0 : ℚ) < m * 2 ^ q :=
  mul_pos (by exact_mod_cast pos) (zpow_pos (by norm_num) q)

/-- A number that is far from being too large for a double. -/
def InRange (v : ℚ) : Prop := v < 2 ^ (1000 : Int)

/-- The first power of two that is too large for a double. -/
def tooLarge : ℚ := 2 ^ (1024 : Int)

theorem tooLarge_pos : 0 < tooLarge := zpow_pos (by norm_num) _

/-- A number that is the value of a double. -/
def IsDouble (v : ℚ) : Prop := v = 0 ∨ ∃ m q, Canonical m q ∧ v = m * 2 ^ q

theorem inRange_of_le {v : ℚ} (h : v ≤ 2 ^ 53) : InRange v := by
  have large : (2 : ℚ) ^ (53 : Int) < 2 ^ (1000 : Int) :=
    zpow_lt_zpow_right₀ (by norm_num) (by norm_num)
  exact h.trans_lt (by exact_mod_cast large)

/-- A double whose form is known has the value that the form stands for. -/
theorem HasValue.of_form {x : Float} {m : Nat} {q : Int} {pos : 0 < m} {v : ℚ}
    (form : x.toModel.unpack = .finite .positive m q pos) (value : (m : ℚ) * 2 ^ q = v) :
    HasValue x v := by
  rw [← value]
  exact .positive m q pos form

theorem HasValue.isNaN {x : Float} {v : ℚ} (h : HasValue x v) : x.isNaN = false := by
  change x.toModel.unpack.isNaN = false
  cases h with
  | zero s form => rw [form]; rfl
  | positive m q pos form => rw [form]; rfl

theorem isDouble_natCast {n : Nat} (short : n < 2 ^ 53) : IsDouble n := by
  rcases Nat.eq_zero_or_pos n with rfl | pos
  · exact .inl Nat.cast_zero
  · rcases exists_canonical_eq_natCast pos short with ⟨m, q, canonical, value⟩
    exact .inr ⟨m, q, canonical, value.symm⟩

/-- A short whole number and a half is a double too: one place behind the point is to be had. -/
theorem isDouble_half {n : Nat} (short : n < 2 ^ 53) : IsDouble (n / 2) := by
  rcases Nat.eq_zero_or_pos n with rfl | pos
  · left
    norm_num
  · rcases exists_canonical_eq_natCast pos short with ⟨m, q, canonical, value⟩
    have place : -53 < q := by
      have one : (1 : ℚ) ≤ n := by exact_mod_cast pos
      have mantissa : (m : ℚ) < 2 ^ (53 : Int) := by exact_mod_cast canonical.lt
      have unit : (0 : ℚ) < 2 ^ q := zpow_pos (by norm_num) q
      have large : (2 : ℚ) ^ (0 : Int) < 2 ^ (53 + q) := by
        calc (2 : ℚ) ^ (0 : Int) ≤ m * 2 ^ q := by rw [value, zpow_zero]; exact one
          _ < 2 ^ (53 : Int) * 2 ^ q := mul_lt_mul_of_pos_right mantissa unit
          _ = 2 ^ (53 + q) := (zpow_add_two 53 q).symm
      have exponents := (zpow_lt_zpow_iff_right₀ (by norm_num : (1 : ℚ) < 2)).mp large
      omega
    have greatest := canonical.greatest
    refine .inr ⟨m, q - 1, ⟨canonical.pos, canonical.lt, by omega, by omega, ?_⟩, ?_⟩
    · rcases canonical.full with full | least
      · exact .inl full
      · omega
    · rw [← value, zpow_sub_one₀ (by norm_num)]
      ring

/-! ### Rounding -/

/-- The double that is nearest to a number, as a number. -/
def rounded (v : ℚ) : ℚ := roundEven (v / 2 ^ lastPlace v) * 2 ^ lastPlace v

theorem le_roundEven {y : ℚ} {m : Nat} (h : (m : ℚ) ≤ y) : m ≤ roundEven y := by
  have floor : m ≤ ⌊y⌋₊ := Nat.le_floor h
  unfold roundEven
  dsimp only
  split
  · exact floor
  · split <;> omega

/-- Only at the least place is a number rounded to fewer than 53 bits. -/
theorem le_roundEven_lastPlace {v : ℚ} (pos : 0 < v) (normal : -1074 < lastPlace v) :
    2 ^ 52 ≤ roundEven (v / 2 ^ lastPlace v) := by
  have place : lastPlace v = Int.log 2 v - 52 := by
    unfold lastPlace at *
    omega
  have bits : (2 : ℚ) ^ Int.log 2 v ≤ v := by
    exact_mod_cast Int.zpow_log_le_self (b := 2) (by norm_num) pos
  apply le_roundEven
  rw [le_div_iff₀ (zpow_pos (by norm_num) _), place]
  calc ((2 ^ 52 : Nat) : ℚ) * 2 ^ (Int.log 2 v - 52)
      = 2 ^ (52 : Int) * 2 ^ (Int.log 2 v - 52) := by norm_num
    _ = 2 ^ (52 + (Int.log 2 v - 52)) := (zpow_add_two _ _).symm
    _ = 2 ^ Int.log 2 v := by congr 1; omega
    _ ≤ v := bits

theorem abs_roundEven_sub_le {y : ℚ} (nonneg : 0 ≤ y) : |(roundEven y : ℚ) - y| ≤ 1 / 2 := by
  have low : (⌊y⌋₊ : ℚ) ≤ y := Nat.floor_le nonneg
  have high : y < ⌊y⌋₊ + 1 := Nat.lt_floor_add_one y
  unfold roundEven
  dsimp only
  rw [abs_le]
  split
  · constructor <;> linarith
  · split
    · push_cast
      constructor <;> linarith
    · have middle : y = ⌊y⌋₊ + 1 / 2 := by linarith
      have odd : ⌊y⌋₊ % 2 ≤ 1 := by omega
      have odd : ((⌊y⌋₊ % 2 : Nat) : ℚ) ≤ 1 := by exact_mod_cast odd
      have even : (0 : ℚ) ≤ (⌊y⌋₊ % 2 : Nat) := Nat.cast_nonneg _
      push_cast at odd even ⊢
      constructor <;> linarith

/-- Rounding moves a number by half a last place at most. -/
theorem abs_rounded_sub_le {v : ℚ} (nonneg : 0 ≤ v) :
    |rounded v - v| ≤ 2 ^ lastPlace v / 2 := by
  have unit : (0 : ℚ) < 2 ^ lastPlace v := zpow_pos (by norm_num) _
  have near := abs_roundEven_sub_le (div_nonneg nonneg unit.le)
  have scaled : rounded v - v
      = (roundEven (v / 2 ^ lastPlace v) - v / 2 ^ lastPlace v) * 2 ^ lastPlace v := by
    rw [sub_mul, div_mul_cancel₀ _ unit.ne']
    rfl
  rw [scaled, abs_mul, abs_of_pos unit]
  linarith [mul_le_mul_of_nonneg_right near unit.le]

theorem rounded_zero : rounded 0 = 0 := by
  have none : roundEven 0 = 0 := roundEven_eq (by norm_num) (by norm_num) (by norm_num)
  rw [rounded, zero_div, none, Nat.cast_zero, zero_mul]

/-- Doubles are not moved. -/
theorem rounded_of_isDouble {v : ℚ} (h : IsDouble v) : rounded v = v := by
  rcases h with rfl | ⟨m, q, canonical, rfl⟩
  · exact rounded_zero
  · have unit : (0 : ℚ) < 2 ^ q := zpow_pos (by norm_num) q
    have mantissa : (0 : ℚ) < m := by exact_mod_cast canonical.pos
    have place : lastPlace (m * 2 ^ q) = q := by
      apply lastPlace_eq (mul_pos mantissa unit) canonical.least
      · rw [add_comm, zpow_add_two]
        exact mul_lt_mul_of_pos_right (by exact_mod_cast canonical.lt) unit
      · rcases canonical.full with full | least
        · right
          rw [add_comm, zpow_add_two]
          exact mul_le_mul_of_nonneg_right (by exact_mod_cast full) unit.le
        · exact .inl least
    have whole : roundEven m = m := by
      apply roundEven_eq
      · linarith
      · linarith
      · intro _
        constructor <;> linarith
    rw [rounded, place, mul_div_cancel_right₀ _ unit.ne', whole]

/-- What the nearest double looks like before it is stored: its mantissa has at most 53 bits, and all
of them unless the exponent is the least one. -/
theorem exists_withMantissa (s : Sign) {v : ℚ} (pos : 0 < v) :
    ∃ m q, nearest s v = withMantissa s m q ∧ rounded v = m * 2 ^ q ∧ m < 2 ^ 53 ∧ -1074 ≤ q ∧
      (2 ^ 52 ≤ m ∨ q = -1074) := by
  have least : -1074 ≤ lastPlace v := le_max_right _ _
  have most := roundEven_lastPlace_le pos.le
  have full : 2 ^ 52 ≤ roundEven (v / 2 ^ lastPlace v) ∨ lastPlace v = -1074 :=
    (Int.lt_or_eq_of_le least).imp (le_roundEven_lastPlace pos) Eq.symm
  unfold nearest rounded
  dsimp only
  generalize roundEven (v / 2 ^ lastPlace v) = m at most full ⊢
  generalize lastPlace v = q at least full ⊢
  by_cases carry : m = 2 ^ 53
  · refine ⟨2 ^ 52, q + 1, if_pos carry, ?_, by norm_num, by omega, .inl (Nat.le_refl _)⟩
    rw [carry, zpow_add_one₀ (by norm_num)]
    push_cast
    ring
  · exact ⟨m, q, if_neg carry, rfl, Nat.lt_of_le_of_ne most carry, least, full⟩

/-- What the nearest double is: zero, a number in canonical form, or too large, so that an infinity
is stored. Its value is that of the rounded number. -/
theorem nearest_cases (s : Sign) {v : ℚ} (pos : 0 < v) :
    (nearest s v = .zero s ∧ rounded v = 0) ∨
      (∃ m q, ∃ h : Canonical m q,
        nearest s v = .finite s m q h.pos ∧ rounded v = m * 2 ^ q) ∨
      ((Float.Model.pack (nearest s v)).unpack = .infinity s ∧ tooLarge ≤ rounded v) := by
  obtain ⟨m, q, form, value, short, least, full⟩ := exists_withMantissa s pos
  rw [form, value]
  rcases Nat.eq_zero_or_pos m with rfl | some_mantissa
  · exact .inl ⟨rfl, by norm_num⟩
  · rw [withMantissa_of_pos some_mantissa]
    rcases Int.lt_or_le 971 q with large | inside
    · have full : (2 : ℚ) ^ (52 : Int) ≤ m := by exact_mod_cast full.resolve_right (by omega)
      refine .inr (.inr ⟨unpack_pack_of_large large, ?_⟩)
      calc tooLarge ≤ 2 ^ (52 + q) := zpow_le_zpow_right₀ (by norm_num) (by omega)
        _ = 2 ^ (52 : Int) * 2 ^ q := zpow_add_two _ _
        _ ≤ m * 2 ^ q := mul_le_mul_of_nonneg_right full (zpow_pos (by norm_num) q).le
    · exact .inr (.inl ⟨m, q, ⟨some_mantissa, short, least, inside, full⟩, rfl, rfl⟩)

/-- What is in range is not rounded to a number that is too large. -/
theorem rounded_lt_of_inRange {v : ℚ} (pos : 0 < v) (inRange : InRange v) :
    rounded v < tooLarge := by
  have log : Int.log 2 v < 1000 := by
    rw [← Int.lt_zpow_iff_log_lt (by norm_num) pos]
    exact inRange
  have place : lastPlace v < 948 := by
    unfold lastPlace
    omega
  have most : (roundEven (v / 2 ^ lastPlace v) : ℚ) ≤ 2 ^ (53 : Int) := by
    exact_mod_cast roundEven_lastPlace_le pos.le
  calc rounded v ≤ 2 ^ (53 : Int) * 2 ^ lastPlace v :=
        mul_le_mul_of_nonneg_right most (zpow_pos (by norm_num) _).le
    _ = 2 ^ (53 + lastPlace v) := (zpow_add_two _ _).symm
    _ < tooLarge := zpow_lt_zpow_right₀ (by norm_num) (by omega)

/-! ### Order -/

/-- Of two numbers in canonical form, the one with the smaller exponent is smaller. -/
theorem lt_of_exponent_lt {m n : Nat} {q r : Int} (hm : Canonical m q) (hn : Canonical n r)
    (less : q < r) : (m : ℚ) * 2 ^ q < n * 2 ^ r := by
  have unit (e : Int) : (0 : ℚ) < 2 ^ e := zpow_pos (by norm_num) e
  have least := hm.least
  have full : 2 ^ 52 ≤ n := by
    rcases hn.full with full | bottom
    · exact full
    · omega
  have full : ((2 : ℚ) ^ (52 : Int)) ≤ n := by exact_mod_cast full
  have short : (m : ℚ) < 2 ^ (53 : Int) := by exact_mod_cast hm.lt
  calc (m : ℚ) * 2 ^ q < 2 ^ (53 : Int) * 2 ^ q := mul_lt_mul_of_pos_right short (unit q)
    _ = 2 ^ (53 + q) := (zpow_add_two _ _).symm
    _ ≤ 2 ^ (52 + r) := zpow_le_zpow_right₀ (by norm_num) (by omega)
    _ = 2 ^ (52 : Int) * 2 ^ r := zpow_add_two _ _
    _ ≤ n * 2 ^ r := mul_le_mul_of_nonneg_right full (unit r).le

/-- Exponents are compared first, and mantissas where they agree. That compares the numbers. -/
theorem compare_canonical {m n : Nat} {q r : Int} (hm : Canonical m q) (hn : Canonical n r) :
    (compare q r).then (compare m n) = compare ((m : ℚ) * 2 ^ q) (n * 2 ^ r) := by
  rcases Int.lt_trichotomy q r with less | rfl | more
  · rw [Int.compare_eq_lt.mpr less, compare_lt_iff_lt.mpr (lt_of_exponent_lt hm hn less)]
    rfl
  · have unit : (0 : ℚ) < 2 ^ q := zpow_pos (by norm_num) q
    rw [Int.compare_eq_eq.mpr rfl]
    change compare m n = _
    rcases Nat.lt_trichotomy m n with below | rfl | above
    · have below' : (m : ℚ) < n := by exact_mod_cast below
      rw [Nat.compare_eq_lt.mpr below,
        compare_lt_iff_lt.mpr (mul_lt_mul_of_pos_right below' unit)]
    · rw [Nat.compare_eq_eq.mpr rfl, compare_eq_iff_eq.mpr rfl]
    · have above' : (n : ℚ) < m := by exact_mod_cast above
      rw [Nat.compare_eq_gt.mpr above,
        compare_gt_iff_gt.mpr (mul_lt_mul_of_pos_right above' unit)]
  · rw [Int.compare_eq_gt.mpr more, compare_gt_iff_gt.mpr (lt_of_exponent_lt hn hm more)]
    rfl

/-- Doubles compare as their values do. -/
theorem HasValue.ordering? {x y : Float} {a b : ℚ} (hx : HasValue x a) (hy : HasValue y b) :
    Binary64.ordering? x y = some (compare a b) := by
  unfold Binary64.ordering?
  cases hx with
  | zero s form =>
      cases hy with
      | zero t form' =>
          rw [form, form', compare_eq_iff_eq.mpr rfl]
          rfl
      | positive n r pos' form' =>
          rw [form, form', compare_lt_iff_lt.mpr (mantissa_pos r pos')]
          rfl
  | positive m q pos form =>
      cases hy with
      | zero t form' =>
          rw [form, form', compare_gt_iff_gt.mpr (mantissa_pos q pos)]
          rfl
      | positive n r pos' form' =>
          rw [form, form', ← compare_canonical (canonical_of_unpack form)
            (canonical_of_unpack form')]
          rfl

theorem HasValue.lt_iff {x y : Float} {a b : ℚ} (hx : HasValue x a) (hy : HasValue y b) :
    x < y ↔ a < b := by
  rw [lt_iff_ordering?, hx.ordering? hy, Option.some.injEq, compare_lt_iff_lt]

theorem HasValue.le_iff {x y : Float} {a b : ℚ} (hx : HasValue x a) (hy : HasValue y b) :
    x ≤ y ↔ a ≤ b := by
  rw [← not_lt_iff_le hy.isNaN hx.isNaN, hy.lt_iff hx, not_lt]

/-! ### Whole numbers -/

/-- A whole number that is a double is converted without loss. -/
theorem hasValue_ofNat_of_isDouble {n : Nat} (h : IsDouble n) : HasValue (Float.ofNat n) n := by
  rcases h with zero | ⟨m, q, canonical, value⟩
  · obtain rfl : n = 0 := by exact_mod_cast zero
    rw [Nat.cast_zero]
    exact .zero .positive rfl
  · have pos : 0 < n := by
      have positive := mantissa_pos q canonical.pos
      rw [← value] at positive
      exact_mod_cast positive
    have stored := @unpack_ofScientific n 0 false pos (by simp) nofun
    rw [if_neg (by decide), Nat.cast_zero, zpow_zero, mul_one, value, nearest_self canonical,
      unpack_pack_of_canonical canonical] at stored
    rw [value]
    exact .positive m q canonical.pos stored

theorem hasValue_ofNat {n : Nat} (short : n < 2 ^ 53) : HasValue (Float.ofNat n) n :=
  hasValue_ofNat_of_isDouble (isDouble_natCast short)

/-- A double that equals one with a value has that value; only the sign of a zero may differ. -/
theorem HasValue.of_beq {x y : Float} {v : ℚ} (hy : HasValue y v) (same : (x == y) = true) :
    HasValue x v := by
  have opened : (x == y) = (Binary64.ordering? x y == some .eq) := rfl
  rw [opened, beq_iff_eq, Binary64.ordering?] at same
  cases hy with
  | zero t form' =>
      rw [form'] at same
      cases form : x.toModel.unpack with
      | zero s => exact .zero s form
      | notANumber => rw [form] at same; cases same
      | infinity s => rw [form] at same; cases s <;> cases same
      | finite s m q pos => rw [form] at same; cases s <;> cases same
  | positive n r pos' form' =>
      rw [form'] at same
      cases form : x.toModel.unpack with
      | zero s => rw [form] at same; cases same
      | notANumber => rw [form] at same; cases same
      | infinity s => rw [form] at same; cases s <;> cases same
      | finite s m q pos =>
          rw [form] at same
          cases s with
          | negative => cases same
          | positive =>
              have parts : (compare q r).then (compare m n) = .eq := Option.some.inj same
              rw [Ordering.then_eq_eq, Int.compare_eq_eq, Nat.compare_eq_eq] at parts
              rcases parts with ⟨rfl, rfl⟩
              exact .positive m q pos form

end PriceSignals.Binary64
