/-
Module: PriceSignals.Proofs.FloatExact
Purpose: The exact values of finite doubles of either sign. Doubles are ordered as their values are,
  rounding keeps the order of numbers, and whole parts are taken of the value itself.
Main exports:
  Binary64.value?, Binary64.isSome_value?, Binary64.ordering?_eq, Binary64.le_iff_of_value?,
  Binary64.roundEven_mono, Binary64.rounded_mono, Binary64.value?_ofInt, Binary64.floor?_eq,
  Binary64.HasValue.nearestNat?_eq
-/
import PriceSignals.Proofs.FloatValue

namespace PriceSignals.Binary64

open Float.Model Float.Model.UnpackedFloat

/-! ### Values -/

/-- The exact value of a finite double. Infinities and NaN have none. -/
def value? (x : Float) : Option ℚ :=
  match x.toModel.unpack with
  | .zero _ => some 0
  | .finite s m q _ => some (s.apply m * 2 ^ q)
  | .infinity _ => none
  | .notANumber => none

/-- Exactly the finite doubles have a value. -/
theorem isSome_value? (x : Float) : (value? x).isSome = x.isFinite := by
  change _ = x.toModel.unpack.isFinite
  unfold value?
  cases x.toModel.unpack <;> rfl

theorem value?_eq_none_iff {x : Float} : value? x = none ↔ x.isFinite = false := by
  rw [← isSome_value?, Option.isSome_eq_false_iff, Option.isNone_iff_eq_none]

theorem HasValue.value?_eq {x : Float} {v : ℚ} (h : HasValue x v) : value? x = some v := by
  unfold value?
  cases h with
  | zero s form => rw [form]
  | positive m q pos form =>
      rw [form]
      simp [Sign.apply]

/-- The forms that a double with a value can have. -/
theorem value?_cases {x : Float} {v : ℚ} (h : value? x = some v) :
    (∃ s, x.toModel.unpack = .zero s ∧ v = 0) ∨
      ∃ s m q pos, x.toModel.unpack = .finite s m q pos ∧ v = s.apply m * 2 ^ q := by
  unfold value? at h
  cases form : x.toModel.unpack with
  | notANumber => simp [form] at h
  | infinity s => simp [form] at h
  | zero s =>
      simp only [form, Option.some.injEq] at h
      exact .inl ⟨s, rfl, h.symm⟩
  | finite s m q pos =>
      simp only [form, Option.some.injEq] at h
      exact .inr ⟨s, m, q, pos, rfl, h.symm⟩

/-- A value that is not below zero is one in the sense of such doubles. -/
theorem hasValue_of_value? {x : Float} {v : ℚ} (h : value? x = some v) (nonneg : 0 ≤ v) :
    HasValue x v := by
  obtain ⟨s, form, rfl⟩ | ⟨s, m, q, pos, form, rfl⟩ := value?_cases h
  · exact .zero s form
  · cases s with
    | positive => simpa [Sign.apply] using HasValue.positive m q pos form
    | negative =>
        have positive := mantissa_pos q pos
        simp only [Sign.apply, Int.cast_neg, Int.cast_natCast] at nonneg
        linarith

/-- A double below zero has a minus sign. -/
theorem negative_of_value? {x : Float} {v : ℚ} (h : value? x = some v) (below : v < 0) :
    ∃ m q pos, x.toModel.unpack = .finite .negative m q pos ∧ v = -(m * 2 ^ q) := by
  obtain ⟨s, form, rfl⟩ | ⟨s, m, q, pos, form, rfl⟩ := value?_cases h
  · exact absurd below (lt_irrefl 0)
  · cases s with
    | positive =>
        have positive := mantissa_pos q pos
        simp only [Sign.apply, Int.cast_natCast] at below
        linarith
    | negative =>
        refine ⟨m, q, pos, form, ?_⟩
        simp [Sign.apply]

/-- The size of a double is a double. -/
theorem isDouble_abs {x : Float} {v : ℚ} (h : value? x = some v) : IsDouble |v| := by
  obtain ⟨s, form, rfl⟩ | ⟨s, m, q, pos, form, rfl⟩ := value?_cases h
  · exact .inl abs_zero
  · refine .inr ⟨m, q, canonical_of_unpack form, ?_⟩
    cases s <;> simp [Sign.apply]

/-! ### Order -/

theorem compare_neg (a b : ℚ) : compare (-a) (-b) = (compare a b).swap := by
  rcases lt_trichotomy a b with less | rfl | more
  · rw [compare_lt_iff_lt.mpr less, compare_gt_iff_gt.mpr (neg_lt_neg less)]
    rfl
  · rw [compare_eq_iff_eq.mpr rfl, compare_eq_iff_eq.mpr rfl]
    rfl
  · rw [compare_gt_iff_gt.mpr more, compare_lt_iff_lt.mpr (neg_lt_neg more)]
    rfl

/-- A double below zero is below every other one. -/
theorem ordering?_of_negative {x y : Float} {a b : ℚ} (hx : value? x = some a) (below : a < 0)
    (hy : HasValue y b) : ordering? x y = some .lt := by
  obtain ⟨m, q, pos, form, -⟩ := negative_of_value? hx below
  rw [ordering?, form]
  cases hy with
  | zero s form' => rw [form']; rfl
  | positive n r pos' form' => rw [form']; rfl

/-- Doubles of either sign compare as their values do. -/
theorem ordering?_eq {x y : Float} {a b : ℚ} (hx : value? x = some a) (hy : value? y = some b) :
    ordering? x y = some (compare a b) := by
  rcases le_or_gt 0 a with a_nonneg | a_below
  · rcases le_or_gt 0 b with b_nonneg | b_below
    · exact (hasValue_of_value? hx a_nonneg).ordering? (hasValue_of_value? hy b_nonneg)
    · have swapped := ordering?_of_negative hy b_below (hasValue_of_value? hx a_nonneg)
      rw [ordering?_swap, swapped, compare_gt_iff_gt.mpr (b_below.trans_le a_nonneg)]
      rfl
  · rcases le_or_gt 0 b with b_nonneg | b_below
    · rw [ordering?_of_negative hx a_below (hasValue_of_value? hy b_nonneg),
        compare_lt_iff_lt.mpr (a_below.trans_le b_nonneg)]
    · obtain ⟨m, q, pos, form, rfl⟩ := negative_of_value? hx a_below
      obtain ⟨n, r, pos', form', rfl⟩ := negative_of_value? hy b_below
      rw [compare_neg, ← compare_canonical (canonical_of_unpack form) (canonical_of_unpack form'),
        ordering?, form, form']
      rfl

theorem le_iff_of_value? {x y : Float} {a b : ℚ} (hx : value? x = some a) (hy : value? y = some b) :
    x ≤ y ↔ a ≤ b := by
  rw [le_iff_ordering?, ordering?_eq hx hy, Option.some.injEq, Option.some.injEq,
    compare_lt_iff_lt, compare_eq_iff_eq, le_iff_lt_or_eq]

/-! ### Rounding keeps the order -/

theorem roundEven_mono {y z : ℚ} (nonneg : 0 ≤ y) (h : y ≤ z) : roundEven y ≤ roundEven z := by
  have floors : ⌊y⌋₊ ≤ ⌊z⌋₊ := Nat.floor_mono h
  rcases Nat.lt_or_eq_of_le floors with less | same
  · have up : y ≤ (⌊y⌋₊ + 1 : Nat) := by exact_mod_cast (Nat.lt_floor_add_one y).le
    calc roundEven y ≤ ⌊y⌋₊ + 1 := roundEven_le nonneg up
      _ ≤ ⌊z⌋₊ := less
      _ ≤ roundEven z := le_roundEven (Nat.floor_le (nonneg.trans h))
  · unfold roundEven
    dsimp only
    rw [same]
    -- The two are rounded from one whole number: down, up, or from the middle to the even one.
    split_ifs <;> first | omega | linarith

theorem rounded_nonneg (v : ℚ) : 0 ≤ rounded v :=
  mul_nonneg (Nat.cast_nonneg _) (zpow_pos (by norm_num) _).le

theorem lastPlace_mono {v w : ℚ} (pos : 0 < v) (h : v ≤ w) : lastPlace v ≤ lastPlace w := by
  have logs : Int.log 2 v ≤ Int.log 2 w := Int.log_mono_right pos h
  unfold lastPlace
  omega

/-- Rounding keeps the order. Numbers with the same last place are rounded to whole multiples of it,
and between numbers with different ones there is a power of two, which is not moved. -/
theorem rounded_mono {v w : ℚ} (nonneg : 0 ≤ v) (h : v ≤ w) : rounded v ≤ rounded w := by
  have unit (q : Int) : (0 : ℚ) < 2 ^ q := zpow_pos (by norm_num) q
  rcases eq_or_lt_of_le nonneg with rfl | pos
  · rw [rounded_zero]
    exact rounded_nonneg w
  · rcases Int.lt_or_eq_of_le (lastPlace_mono pos h) with finer | same
    · have least : -1074 ≤ lastPlace v := le_max_right _ _
      have most := roundEven_lastPlace_le nonneg
      have full := le_roundEven_lastPlace (pos.trans_le h) (Int.lt_of_le_of_lt least finer)
      have most : (roundEven (v / 2 ^ lastPlace v) : ℚ) ≤ 2 ^ (53 : Int) := by exact_mod_cast most
      have full : (2 : ℚ) ^ (52 : Int) ≤ roundEven (w / 2 ^ lastPlace w) := by exact_mod_cast full
      calc rounded v ≤ 2 ^ (53 : Int) * 2 ^ lastPlace v :=
            mul_le_mul_of_nonneg_right most (unit _).le
        _ = 2 ^ (53 + lastPlace v) := (zpow_add_two _ _).symm
        _ ≤ 2 ^ (52 + lastPlace w) := zpow_le_zpow_right₀ (by norm_num) (by omega)
        _ = 2 ^ (52 : Int) * 2 ^ lastPlace w := zpow_add_two _ _
        _ ≤ rounded w := mul_le_mul_of_nonneg_right full (unit _).le
    · have scaled : v / 2 ^ lastPlace w ≤ w / 2 ^ lastPlace w :=
        div_le_div_of_nonneg_right h (unit _).le
      have wholes := roundEven_mono (div_nonneg nonneg (unit _).le) scaled
      rw [rounded, rounded, same]
      exact mul_le_mul_of_nonneg_right (by exact_mod_cast wholes) (unit _).le

/-- Rounding does not lead across a double. -/
theorem rounded_le {v w : ℚ} (nonneg : 0 ≤ v) (h : v ≤ w) (double : IsDouble w) :
    rounded v ≤ w := by
  simpa only [rounded_of_isDouble double] using rounded_mono nonneg h

/-! ### Whole numbers -/

theorem value?_ofInt {n : Int} (h : IsDouble n.natAbs) : value? (Float.ofInt n) = some (n : ℚ) := by
  cases n with
  | ofNat n => exact (hasValue_ofNat_of_isDouble h).value?_eq
  | negSucc n =>
      have negated : (Float.ofInt (Int.negSucc n)).toModel.unpack
          = (Float.Model.pack (Float.ofNat (n + 1)).toModel.unpack.neg).unpack := rfl
      have size := hasValue_ofNat_of_isDouble (n := n + 1) h
      generalize hv : ((n + 1 : Nat) : ℚ) = v at size
      cases size with
      | zero s form =>
          have some_number : ((n + 1 : Nat) : ℚ) ≠ 0 := by exact_mod_cast Nat.succ_ne_zero n
          exact absurd hv some_number
      | positive m q pos form =>
          rw [form] at negated
          have stored : (Float.ofInt (Int.negSucc n)).toModel.unpack = .finite .negative m q pos :=
            negated.trans (unpack_pack_of_canonical (canonical_of_unpack form))
          rw [value?, stored, Int.cast_negSucc, hv]
          simp [Sign.apply]

theorem apply_eq (s : Sign) (m : Nat) : (if isMinus s then -(m : Int) else m) = s.apply m := by
  cases s <;> rfl

theorem zpow_of_nonneg {q : Int} (h : 0 ≤ q) : (2 : ℚ) ^ q = (2 ^ q.toNat : Nat) := by
  rw [← pow_toNat 2 h]
  push_cast
  rfl

theorem zpow_of_neg {q : Int} (h : ¬ 0 ≤ q) : (2 : ℚ) ^ q = ((2 ^ (-q).toNat : Nat) : ℚ)⁻¹ := by
  rw [Nat.cast_pow, Nat.cast_ofNat, pow_toNat 2 (by omega), ← zpow_neg, neg_neg]

/-- The whole part of a double is that of its value. -/
theorem floor?_eq (x : Float) : floor? x = (value? x).map fun v => ⌊v⌋ := by
  unfold floor? magnitude? value?
  cases form : x.toModel.unpack with
  | notANumber => rfl
  | infinity s => rfl
  | zero s => simp
  | finite s m q pos =>
      have sign : isNegative x = isMinus s := by
        rw [isNegative, form]
      simp only [Option.map_some, sign, apply_eq, Nat.pow_eq]
      congr 1
      split
      · rename_i large
        rw [zpow_of_nonneg large]
        exact_mod_cast (Int.floor_intCast _).symm
      · rename_i small
        rw [zpow_of_neg small, ← div_eq_mul_inv, Rat.floor_intCast_div_natCast]

/-- Rounding a double to a whole number rounds its value, a half going up. -/
theorem HasValue.nearestNat?_eq {x : Float} {v : ℚ} (h : HasValue x v) :
    nearestNat? x = some ⌊v + 1 / 2⌋₊ := by
  unfold nearestNat? magnitude?
  cases h with
  | zero s form =>
      rw [form]
      norm_num
  | positive m q pos form =>
      rw [form]
      simp only [Option.map_some, Nat.pow_eq]
      congr 1
      split
      · rename_i large
        rw [zpow_of_nonneg large, eq_comm, ← Nat.cast_mul, Nat.floor_eq_iff (by positivity)]
        constructor <;> linarith
      · rename_i small
        have whole : (m : ℚ) * ((2 ^ (-q).toNat : Nat) : ℚ)⁻¹ + 1 / 2
            = (2 * m + 2 ^ (-q).toNat : Nat) / (2 ^ ((-q).toNat + 1) : Nat) := by
          rw [pow_succ]
          push_cast
          field_simp
        rw [zpow_of_neg small, whole, Nat.floor_div_eq_div]

end PriceSignals.Binary64
