/-
Module: PriceSignals.Proofs.FloatOperations
Purpose: What the operations on finite doubles store: the exact result, rounded, or an infinity
  where that is too large. In the order of all doubles an infinity stands where the first number
  stands that is too large.
Main exports:
  Binary64.level?, Binary64.le_iff_of_level?, Binary64.lt_iff_of_level?, Binary64.stored,
  Binary64.stored_mono, Binary64.level?_add, Binary64.level?_sub, Binary64.level?_mul,
  Binary64.level?_div, Binary64.hasValue_ofNat_rounded, Binary64.HasValue.add,
  Binary64.hasValue_sub, Binary64.HasValue.mul, Binary64.HasValue.div, Binary64.value?_ofNat
-/
import PriceSignals.Proofs.FloatExact

namespace PriceSignals.Binary64

open Float.Model Float.Model.UnpackedFloat

/-! ### Places in the order -/

/-- A number with a sign in front of it. -/
def signed (s : Sign) (v : ℚ) : ℚ := if isMinus s then -v else v

/-- The place of a double in the order of all doubles: its value, and for an infinity the number
that is too large. NaN has no place. -/
def level? (x : Float) : Option ℚ :=
  match x.toModel.unpack with
  | .infinity s => some (signed s tooLarge)
  | _ => value? x

@[simp] theorem signed_positive (v : ℚ) : signed .positive v = v := rfl

@[simp] theorem signed_negative (v : ℚ) : signed .negative v = -v := rfl

theorem abs_signed (s : Sign) (v : ℚ) : |signed s v| = |v| := by
  cases s <;> simp

theorem apply_mul (s : Sign) (m : Nat) (v : ℚ) :
    ((s.apply m : Int) : ℚ) * v = signed s (m * v) := by
  cases s <;> simp [Sign.apply]

theorem level?_of_infinity {x : Float} {s : Sign} (form : x.toModel.unpack = .infinity s) :
    level? x = some (signed s tooLarge) := by
  rw [level?, form]

theorem level?_of_value? {x : Float} {v : ℚ} (h : value? x = some v) : level? x = some v := by
  rcases value?_cases h with ⟨s, form, -⟩ | ⟨s, m, q, pos, form, -⟩
  · rw [level?, form, ← h]
  · rw [level?, form, ← h]

theorem level?_cases {x : Float} {a : ℚ} (h : level? x = some a) :
    value? x = some a ∨ ∃ s, x.toModel.unpack = .infinity s ∧ a = signed s tooLarge := by
  unfold level? at h
  split at h
  · rename_i s form
    exact .inr ⟨s, form, (Option.some.inj h).symm⟩
  · exact .inl h

/-- Exactly the numbers have a place. -/
theorem isSome_level? (x : Float) : (level? x).isSome = !x.isNaN := by
  change _ = !x.toModel.unpack.isNaN
  unfold level? value?
  cases x.toModel.unpack <;> rfl

theorem isNaN_of_level? {x : Float} {a : ℚ} (h : level? x = some a) : x.isNaN = false := by
  have number := isSome_level? x
  rw [h] at number
  simpa using number.symm

/-- A finite double is not too large. -/
theorem abs_lt_of_value? {x : Float} {v : ℚ} (h : value? x = some v) : |v| < tooLarge := by
  rcases isDouble_abs h with zero | ⟨m, q, canonical, size⟩
  · rw [zero]
    exact tooLarge_pos
  · have unit : (0 : ℚ) < 2 ^ q := zpow_pos (by norm_num) q
    have short : (m : ℚ) < 2 ^ (53 : Int) := by exact_mod_cast canonical.lt
    have greatest := canonical.greatest
    calc |v| = m * 2 ^ q := size
      _ < 2 ^ (53 : Int) * 2 ^ q := mul_lt_mul_of_pos_right short unit
      _ = 2 ^ (53 + q) := (zpow_add_two _ _).symm
      _ ≤ tooLarge := zpow_le_zpow_right₀ (by norm_num) (by omega)

/-- An infinity stands outside of all finite doubles. -/
theorem ordering?_of_infinity {x y : Float} {v : ℚ} {t : Sign} (hx : value? x = some v)
    (hy : y.toModel.unpack = .infinity t) :
    ordering? x y = some (compare v (signed t tooLarge)) := by
  have bounds := abs_lt.mp (abs_lt_of_value? hx)
  rw [ordering?, hy]
  cases t with
  | positive =>
      rw [signed_positive, compare_lt_iff_lt.mpr bounds.2]
      rcases value?_cases hx with ⟨s, form, -⟩ | ⟨s, m, q, pos, form, -⟩
      · rw [form]
        rfl
      · rw [form]
        cases s <;> rfl
  | negative =>
      rw [signed_negative, compare_gt_iff_gt.mpr bounds.1]
      rcases value?_cases hx with ⟨s, form, -⟩ | ⟨s, m, q, pos, form, -⟩
      · rw [form]
        rfl
      · rw [form]
        cases s <;> rfl

theorem ordering?_of_infinities {x y : Float} {s t : Sign} (hx : x.toModel.unpack = .infinity s)
    (hy : y.toModel.unpack = .infinity t) :
    ordering? x y = some (compare (signed s tooLarge) (signed t tooLarge)) := by
  have positive := tooLarge_pos
  have less : signed .negative tooLarge < signed .positive tooLarge := by
    rw [signed_negative, signed_positive]
    linarith
  rw [ordering?, hx, hy]
  cases s with
  | negative =>
      cases t with
      | negative => rw [compare_eq_iff_eq.mpr rfl]; rfl
      | positive => rw [compare_lt_iff_lt.mpr less]; rfl
  | positive =>
      cases t with
      | negative => rw [compare_gt_iff_gt.mpr less]; rfl
      | positive => rw [compare_eq_iff_eq.mpr rfl]; rfl

/-- Doubles compare as their places do. -/
theorem ordering?_of_level? {x y : Float} {a b : ℚ} (hx : level? x = some a)
    (hy : level? y = some b) : ordering? x y = some (compare a b) := by
  rcases level?_cases hx with hx | ⟨s, form, rfl⟩
  · rcases level?_cases hy with hy | ⟨t, form', rfl⟩
    · exact ordering?_eq hx hy
    · exact ordering?_of_infinity hx form'
  · rcases level?_cases hy with hy | ⟨t, form', rfl⟩
    · rw [ordering?_swap y x, ordering?_of_infinity hy form, Option.map_some,
        ← Std.OrientedOrd.eq_swap]
    · exact ordering?_of_infinities form form'

theorem lt_iff_of_level? {x y : Float} {a b : ℚ} (hx : level? x = some a)
    (hy : level? y = some b) : x < y ↔ a < b := by
  rw [lt_iff_ordering?, ordering?_of_level? hx hy, Option.some.injEq, compare_lt_iff_lt]

theorem le_iff_of_level? {x y : Float} {a b : ℚ} (hx : level? x = some a)
    (hy : level? y = some b) : x ≤ y ↔ a ≤ b := by
  rw [le_iff_ordering?, ordering?_of_level? hx hy, Option.some.injEq, Option.some.injEq,
    compare_lt_iff_lt, compare_eq_iff_eq, le_iff_lt_or_eq]

/-- Only numbers compare. -/
theorem isNaN_of_ordering? {x y : Float} {o : Ordering} (h : ordering? x y = some o) :
    x.isNaN = false ∧ y.isNaN = false := by
  change x.toModel.unpack.isNaN = false ∧ y.toModel.unpack.isNaN = false
  unfold ordering? at h
  cases hx : x.toModel.unpack with
  | notANumber =>
      rw [hx] at h
      cases h
  | _ =>
      refine ⟨rfl, ?_⟩
      cases hy : y.toModel.unpack with
      | notANumber =>
          rw [hx, hy] at h
          cases h
      | _ => rfl

theorem isNaN_of_le {x y : Float} (h : x ≤ y) : x.isNaN = false ∧ y.isNaN = false :=
  (le_iff_ordering?.mp h).elim isNaN_of_ordering? isNaN_of_ordering?

theorem exists_level? {x : Float} (number : x.isNaN = false) : ∃ a, level? x = some a := by
  rw [← Option.isSome_iff_exists, isSome_level?, number]
  rfl

/-- Doubles in order have places in order. -/
theorem exists_level?_of_le {x y : Float} (h : x ≤ y) :
    ∃ a b, level? x = some a ∧ level? y = some b ∧ a ≤ b := by
  obtain ⟨a, ha⟩ := exists_level? (isNaN_of_le h).1
  obtain ⟨b, hb⟩ := exists_level? (isNaN_of_le h).2
  exact ⟨a, b, ha, hb, (le_iff_of_level? ha hb).mp h⟩

theorem le_refl {x : Float} (number : x.isNaN = false) : x ≤ x := by
  obtain ⟨a, ha⟩ := exists_level? number
  exact (le_iff_of_level? ha ha).mpr le_rfl

theorem le_trans {x y z : Float} (hxy : x ≤ y) (hyz : y ≤ z) : x ≤ z := by
  obtain ⟨a, b, ha, hb, below⟩ := exists_level?_of_le hxy
  obtain ⟨b', c, hb', hc, above⟩ := exists_level?_of_le hyz
  obtain rfl : b = b' := Option.some.inj (hb.symm.trans hb')
  exact (le_iff_of_level? ha hc).mpr (below.trans above)

theorem lt_of_lt_of_le {x y z : Float} (hxy : x < y) (hyz : y ≤ z) : x < z := by
  obtain ⟨b, c, hb, hc, above⟩ := exists_level?_of_le hyz
  obtain ⟨a, ha⟩ := exists_level? (isNaN_of_ordering? (lt_iff_ordering?.mp hxy)).1
  exact (lt_iff_of_level? ha hc).mpr (((lt_iff_of_level? ha hb).mp hxy).trans_le above)

/-- There is no double between two whose mantissas follow each other. -/
theorem le_of_lt_next {x y z : Float} {m : Nat} {q : Int} {pos : 0 < m} {pos' : 0 < m + 1}
    (hy : y.toModel.unpack = .finite .positive m q pos)
    (hz : z.toModel.unpack = .finite .positive (m + 1) q pos') (h : x < z) : x ≤ y := by
  have unit : (0 : ℚ) < 2 ^ q := zpow_pos (by norm_num) q
  have atY := level?_of_value? (HasValue.positive m q pos hy).value?_eq
  have atZ := level?_of_value? (HasValue.positive (m + 1) q pos' hz).value?_eq
  obtain ⟨a, ha⟩ := exists_level? (isNaN_of_ordering? (lt_iff_ordering?.mp h)).1
  rw [lt_iff_of_level? ha atZ] at h
  rw [le_iff_of_level? ha atY]
  have nonneg : 0 ≤ (m : ℚ) * 2 ^ q := (mantissa_pos q pos).le
  rcases le_or_gt a 0 with below | above
  · exact below.trans nonneg
  · rcases level?_cases ha with value | ⟨s, -, rfl⟩
    · cases hasValue_of_value? value above.le with
      | zero s form => exact nonneg
      | positive n r posn form =>
          -- The exponents decide, and where they agree, no whole number is between the mantissas.
          have canonical := canonical_of_unpack form
          rcases Int.lt_trichotomy r q with less | rfl | more
          · exact (lt_of_exponent_lt canonical (canonical_of_unpack hy) less).le
          · have fewer : n < m + 1 := by exact_mod_cast lt_of_mul_lt_mul_right h unit.le
            exact mul_le_mul_of_nonneg_right (by exact_mod_cast Nat.le_of_lt_succ fewer) unit.le
          · exact absurd h (lt_of_exponent_lt (canonical_of_unpack hz) canonical more).not_gt
    · have small : |((m + 1 : Nat) : ℚ) * 2 ^ q| < tooLarge :=
        abs_lt_of_value? (HasValue.positive (m + 1) q pos' hz).value?_eq
      have size : |signed s tooLarge| = tooLarge := by
        rw [abs_signed, abs_of_pos tooLarge_pos]
      rw [abs_of_pos above] at size
      linarith [le_abs_self (((m + 1 : Nat) : ℚ) * 2 ^ q)]

/-! ### What is stored -/

/-- A number of either sign, rounded. -/
def roundedSigned (v : ℚ) : ℚ := if 0 ≤ v then rounded v else -rounded (-v)

/-- The place of the double as which a number is stored: the number is rounded, and what is too
large then becomes an infinity. -/
def stored (v : ℚ) : ℚ := max (-tooLarge) (min (roundedSigned v) tooLarge)

theorem roundedSigned_neg (v : ℚ) : roundedSigned (-v) = -roundedSigned v := by
  unfold roundedSigned
  rcases lt_trichotomy v 0 with below | rfl | above
  · rw [if_pos (by linarith), if_neg (by linarith), neg_neg]
  · simp [rounded_zero]
  · rw [if_neg (by linarith), if_pos (by linarith), neg_neg]

theorem roundedSigned_mono : Monotone roundedSigned := by
  intro v w h
  unfold roundedSigned
  by_cases hv : 0 ≤ v
  · rw [if_pos hv, if_pos (hv.trans h)]
    exact rounded_mono hv h
  · by_cases hw : 0 ≤ w
    · rw [if_neg hv, if_pos hw]
      linarith [rounded_nonneg (-v), rounded_nonneg w]
    · rw [if_neg hv, if_neg hw]
      exact neg_le_neg (rounded_mono (by linarith) (by linarith))

theorem stored_mono : Monotone stored := by
  intro v w h
  exact max_le_max_left _ (min_le_min_right _ (roundedSigned_mono h))

theorem stored_le (v : ℚ) : stored v ≤ tooLarge := by
  have positive := tooLarge_pos
  exact max_le (by linarith) (min_le_right _ _)

theorem neg_le_stored (v : ℚ) : -tooLarge ≤ stored v := le_max_left _ _

/-- A sign goes through storing. -/
theorem stored_signed (s : Sign) {v : ℚ} (nonneg : 0 ≤ v) :
    stored (signed s v) = signed s (min (rounded v) tooLarge) := by
  have positive := tooLarge_pos
  have size : 0 ≤ min (rounded v) tooLarge := le_min (rounded_nonneg v) positive.le
  cases s with
  | positive =>
      rw [signed_positive, signed_positive, stored, roundedSigned, if_pos nonneg,
        max_eq_right (by linarith)]
  | negative =>
      have below : -rounded v ≤ tooLarge := by linarith [rounded_nonneg v]
      rw [signed_negative, signed_negative, stored, roundedSigned_neg, roundedSigned,
        if_pos nonneg, min_eq_left below, max_neg_neg, min_comm]

/-- The value of a double is stored as it is. -/
theorem stored_of_value? {x : Float} {v : ℚ} (h : value? x = some v) : stored v = v := by
  have bound := abs_lt_of_value? h
  have exact_size : rounded |v| = |v| := rounded_of_isDouble (isDouble_abs h)
  have kept (s : Sign) (size : v = signed s |v|) : stored v = v := by
    rw [size, stored_signed s (abs_nonneg v), exact_size, min_eq_left bound.le]
  rcases le_total 0 v with nonneg | below
  · exact kept .positive (abs_of_nonneg nonneg).symm
  · refine kept .negative ?_
    rw [signed_negative, abs_of_nonpos below, neg_neg]

theorem value?_zero : value? 0 = some 0 := rfl

theorem level?_zero : level? 0 = some 0 := level?_of_value? value?_zero

theorem stored_zero : stored 0 = 0 := stored_of_value? value?_zero

/-- A double that does not equal zero does not have the value zero. -/
theorem ne_zero_of_beq {x : Float} {v : ℚ} (h : value? x = some v) (nonzero : (x == 0) = false) :
    v ≠ 0 := by
  rintro rfl
  have opened : (x == 0) = (ordering? x 0 == some .eq) := rfl
  rw [nonzero, ordering?_eq h value?_zero, compare_eq_iff_eq.mpr rfl] at opened
  cases opened

/-- The nearest double, or the infinity where that is too large, is what a number is stored as. -/
theorem level?_of_nearest {x : Float} {s : Sign} {v : ℚ} (pos : 0 < v)
    (form : x.toModel.unpack = (Float.Model.pack (nearest s v)).unpack) :
    level? x = some (stored (signed s v)) := by
  have positive := tooLarge_pos
  rw [stored_signed s pos.le]
  rcases nearest_cases s pos with ⟨none, size⟩ | ⟨m, q, canonical, near, size⟩ | ⟨infinite, large⟩
  · rw [none, unpack_pack_zero] at form
    rw [size, min_eq_left positive.le, @level?_of_value? x 0 (by rw [value?, form])]
    cases s <;> simp
  · rw [near, unpack_pack_of_canonical canonical] at form
    have value : value? x = some (signed s (rounded v)) := by
      rw [value?, form, size, ← apply_mul]
    have bound := abs_lt_of_value? value
    rw [abs_signed, abs_of_nonneg (rounded_nonneg v)] at bound
    rw [min_eq_left bound.le, level?_of_value? value]
  · rw [min_eq_right large, level?_of_infinity (form.trans infinite)]

/-! ### Operations -/

theorem level?_of_zero {x : Float} {s : Sign} (form : x.toModel.unpack = .zero s) :
    level? x = some 0 := by
  rw [level?, form]
  simp only [value?, form]

theorem signed_mul (s t : Sign) (v w : ℚ) : signed s v * signed t w = signed (s * t) (v * w) := by
  cases s with
  | positive =>
      cases t with
      | positive => rfl
      | negative => exact mul_neg v w
  | negative =>
      cases t with
      | positive => exact neg_mul v w
      | negative => exact neg_mul_neg v w

theorem signed_div (s t : Sign) (v w : ℚ) : signed s v / signed t w = signed (s / t) (v / w) := by
  cases s with
  | positive =>
      cases t with
      | positive => rfl
      | negative => exact div_neg v
  | negative =>
      cases t with
      | positive => exact neg_div w v
      | negative => exact neg_div_neg_eq v w

/-- A whole number of units is stored rounded. -/
theorem level?_of_normalize {x : Float} {k e : Int} (form : x.toModel.unpack = (Float.Model.pack
      (UnpackedFloat.normalize Format.binary64 k e .positive)).unpack) :
    level? x = some (stored (k * 2 ^ e)) := by
  have unit : (0 : ℚ) < 2 ^ e := zpow_pos (by norm_num) e
  rcases Int.lt_trichotomy k 0 with below | rfl | above
  · have size : (0 : ℚ) < -k * 2 ^ e := mul_pos (by exact_mod_cast neg_pos.mpr below) unit
    rw [normalize_of_neg below] at form
    rw [level?_of_nearest size form, signed_negative, neg_mul, neg_neg]
  · have none : UnpackedFloat.normalize Format.binary64 0 e .positive = .zero .positive := rfl
    rw [none, unpack_pack_zero] at form
    rw [Int.cast_zero, zero_mul, stored_zero]
    exact level?_of_zero form
  · rw [normalize_of_pos above] at form
    rw [level?_of_nearest (mul_pos (by exact_mod_cast above) unit) form, signed_positive]

/-- More places behind a mantissa leave the number as it is. -/
theorem apply_shiftLeft (s : Sign) (m : Nat) {e q : Int} (fine : e ≤ q) :
    ((s.apply (m <<< (q - e).toNat : Nat) : Int) : ℚ) * 2 ^ e = (s.apply m : Int) * 2 ^ q := by
  have unsigned : ((m <<< (q - e).toNat : Nat) : ℚ) * 2 ^ e = m * 2 ^ q := by
    rw [Nat.shiftLeft_eq, Nat.cast_mul, Nat.cast_pow, Nat.cast_ofNat, mul_assoc, ← zpow_natCast,
      ← zpow_add_two]
    congr 2
    omega
  cases s with
  | positive => simpa only [Sign.apply, Int.cast_natCast] using unsigned
  | negative =>
      simpa only [Sign.apply, Int.cast_neg, Int.cast_natCast, neg_mul, neg_inj] using unsigned

/-- A sum of doubles is a whole number of units before it is rounded. -/
theorem exists_add_eq {s t : Sign} {m n : Nat} {q r : Int} (posm : 0 < m) (posn : 0 < n) :
    ∃ k e : Int, UnpackedFloat.add Format.binary64 (.finite s m q posm) (.finite t n r posn)
        = UnpackedFloat.normalize Format.binary64 k e .positive ∧
      (k : ℚ) * 2 ^ e = (s.apply m : Int) * 2 ^ q + (t.apply n : Int) * 2 ^ r := by
  refine ⟨s.apply (m <<< (q - min q r).toNat : Nat) + t.apply (n <<< (r - min q r).toNat : Nat),
    min q r, rfl, ?_⟩
  rw [Int.cast_add, add_mul, apply_shiftLeft s m (min_le_left q r),
    apply_shiftLeft t n (min_le_right q r)]

/-- A zero that is added to something else changes nothing. -/
theorem zero_add_eq {x y : Float} {s : Sign} (hx : x.toModel.unpack = .zero s)
    (hy : ∀ t, y.toModel.unpack ≠ .zero t) : x + y = y := by
  have sum : (x + y).toModel.unpack = (Float.Model.pack
      (UnpackedFloat.add .binary64 x.toModel.unpack y.toModel.unpack)).unpack := rfl
  have same : UnpackedFloat.add .binary64 (.zero s) y.toModel.unpack = y.toModel.unpack := by
    cases form : y.toModel.unpack with
    | zero t => exact absurd form (hy t)
    | _ => rfl
  rw [hx, same, unpack_pack_unpack] at sum
  exact eq_of_unpack_eq sum

theorem add_zero_eq {x y : Float} {s : Sign} (hx : ∀ t, x.toModel.unpack ≠ .zero t)
    (hy : y.toModel.unpack = .zero s) : x + y = x := by
  have sum : (x + y).toModel.unpack = (Float.Model.pack
      (UnpackedFloat.add .binary64 x.toModel.unpack y.toModel.unpack)).unpack := rfl
  have same : UnpackedFloat.add .binary64 x.toModel.unpack (.zero s) = x.toModel.unpack := by
    cases form : x.toModel.unpack with
    | zero t => exact absurd form (hx t)
    | _ => rfl
  rw [hy, same, unpack_pack_unpack] at sum
  exact eq_of_unpack_eq sum

/-- A sum is stored rounded. -/
theorem level?_add {x y : Float} {a b : ℚ} (hx : value? x = some a) (hy : value? y = some b) :
    level? (x + y) = some (stored (a + b)) := by
  have sum : (x + y).toModel.unpack = (Float.Model.pack
      (UnpackedFloat.add .binary64 x.toModel.unpack y.toModel.unpack)).unpack := rfl
  rcases value?_cases hx with ⟨s, form, rfl⟩ | ⟨s, m, q, posm, form, rfl⟩
  · rcases value?_cases hy with ⟨t, form', rfl⟩ | ⟨t, n, r, posn, form', rfl⟩
    · rw [form, form'] at sum
      rw [zero_add, stored_zero]
      cases s <;> cases t <;> exact level?_of_zero (sum.trans (unpack_pack_zero _))
    · have other : ∀ t, y.toModel.unpack ≠ .zero t := by
        rw [form']
        exact nofun
      rw [zero_add, stored_of_value? hy, zero_add_eq form other, level?_of_value? hy]
  · rcases value?_cases hy with ⟨t, form', rfl⟩ | ⟨t, n, r, posn, form', rfl⟩
    · have other : ∀ t, x.toModel.unpack ≠ .zero t := by
        rw [form]
        exact nofun
      rw [add_zero, stored_of_value? hx, add_zero_eq other form', level?_of_value? hx]
    · obtain ⟨k, e, exact, value⟩ := @exists_add_eq s t m n q r posm posn
      rw [form, form', exact] at sum
      rw [← value]
      exact level?_of_normalize sum

/-- The negative of a double has the negative value. -/
theorem unpack_neg (x : Float) : (-x).toModel.unpack = x.toModel.unpack.neg := by
  have negated : (-x).toModel.unpack = (Float.Model.pack x.toModel.unpack.neg).unpack := rfl
  cases form : x.toModel.unpack with
  | notANumber =>
      rw [form] at negated
      exact negated.trans unpack_pack_notANumber
  | infinity s =>
      rw [form] at negated
      exact negated.trans (unpack_pack_infinity _)
  | zero s =>
      rw [form] at negated
      exact negated.trans (unpack_pack_zero _)
  | finite s m q pos =>
      rw [form] at negated
      exact negated.trans (unpack_pack_of_canonical (canonical_of_unpack form))

theorem apply_neg (s : Sign) (m : Int) : (-s).apply m = -s.apply m := by
  cases s with
  | positive => rfl
  | negative => exact (neg_neg m).symm

theorem value?_neg {x : Float} {v : ℚ} (h : value? x = some v) : value? (-x) = some (-v) := by
  rcases value?_cases h with ⟨s, form, rfl⟩ | ⟨s, m, q, pos, form, rfl⟩
  · rw [value?, unpack_neg, form, neg_zero]
    rfl
  · rw [value?, unpack_neg, form]
    simp only [UnpackedFloat.neg, apply_neg, Int.cast_neg, neg_mul]

theorem level?_neg {x : Float} {a : ℚ} (h : level? x = some a) : level? (-x) = some (-a) := by
  rcases level?_cases h with value | ⟨s, form, rfl⟩
  · exact level?_of_value? (value?_neg value)
  · have negated : (-x).toModel.unpack = .infinity (-s) := by
      rw [unpack_neg, form]
      rfl
    rw [level?_of_infinity negated]
    cases s with
    | positive => rfl
    | negative => exact congrArg some (neg_neg tooLarge).symm

/-- A difference is a sum with the negative. -/
theorem sub_eq_add (x y : Float) : x - y = x + -y := by
  have difference : (x - y).toModel.unpack = (Float.Model.pack
      (UnpackedFloat.sub .binary64 x.toModel.unpack y.toModel.unpack)).unpack := rfl
  have sum : (x + -y).toModel.unpack = (Float.Model.pack
      (UnpackedFloat.add .binary64 x.toModel.unpack (-y).toModel.unpack)).unpack := rfl
  apply eq_of_unpack_eq
  rw [difference, sum, unpack_neg]
  congr 2
  cases x.toModel.unpack with
  | finite s m q posm =>
      cases y.toModel.unpack with
      | finite t n r posn =>
          simp only [UnpackedFloat.sub, UnpackedFloat.add, UnpackedFloat.neg, apply_neg,
            Int.sub_eq_add_neg]
      | _ => rfl
  | _ => cases y.toModel.unpack <;> rfl

theorem level?_sub {x y : Float} {a b : ℚ} (hx : value? x = some a) (hy : value? y = some b) :
    level? (x - y) = some (stored (a - b)) := by
  rw [sub_eq_add, level?_add hx (value?_neg hy), sub_eq_add_neg]

/-- A product is stored rounded. -/
theorem level?_mul {x y : Float} {a b : ℚ} (hx : value? x = some a) (hy : value? y = some b) :
    level? (x * y) = some (stored (a * b)) := by
  have product : (x * y).toModel.unpack = (Float.Model.pack
      (UnpackedFloat.mul .binary64 x.toModel.unpack y.toModel.unpack)).unpack := rfl
  rcases value?_cases hx with ⟨s, form, rfl⟩ | ⟨s, m, q, posm, form, rfl⟩
  · rw [zero_mul, stored_zero]
    rcases value?_cases hy with ⟨t, form', -⟩ | ⟨t, n, r, posn, form', -⟩
    · rw [form, form'] at product
      exact level?_of_zero (product.trans (unpack_pack_zero _))
    · rw [form, form'] at product
      exact level?_of_zero (product.trans (unpack_pack_zero _))
  · rcases value?_cases hy with ⟨t, form', rfl⟩ | ⟨t, n, r, posn, form', rfl⟩
    · rw [form, form'] at product
      rw [mul_zero, stored_zero]
      exact level?_of_zero (product.trans (unpack_pack_zero _))
    · rw [apply_mul, apply_mul, signed_mul]
      exact level?_of_nearest (mul_pos (mantissa_pos q posm) (mantissa_pos r posn))
        (unpack_mul form form')

/-- A quotient is stored rounded. -/
theorem level?_div {x y : Float} {a b : ℚ} (hx : value? x = some a) (hy : value? y = some b)
    (nonzero : b ≠ 0) : level? (x / y) = some (stored (a / b)) := by
  have quotient : (x / y).toModel.unpack = (Float.Model.pack
      (UnpackedFloat.div .binary64 x.toModel.unpack y.toModel.unpack)).unpack := rfl
  rcases value?_cases hy with ⟨t, form', rfl⟩ | ⟨t, n, r, posn, form', rfl⟩
  · exact absurd rfl nonzero
  · rcases value?_cases hx with ⟨s, form, rfl⟩ | ⟨s, m, q, posm, form, rfl⟩
    · rw [form, form'] at quotient
      rw [zero_div, stored_zero]
      exact level?_of_zero (quotient.trans (unpack_pack_zero _))
    · rw [apply_mul, apply_mul, signed_div]
      exact level?_of_nearest (div_pos (mantissa_pos q posm) (mantissa_pos r posn))
        (unpack_div form form')

/-! ### Results that are not below zero -/

theorem value?_of_level? {x : Float} {a : ℚ} (h : level? x = some a) (inside : |a| < tooLarge) :
    value? x = some a := by
  rcases level?_cases h with value | ⟨s, -, rfl⟩
  · exact value
  · rw [abs_signed, abs_of_pos tooLarge_pos] at inside
    exact absurd inside (lt_irrefl _)

/-- Where the exact result is in range and not below zero, what is stored has the rounded value. -/
theorem hasValue_of_stored {x : Float} {v : ℚ} (h : level? x = some (stored v)) (nonneg : 0 ≤ v)
    (inRange : InRange v) : HasValue x (rounded v) := by
  have small : rounded v < tooLarge := by
    rcases eq_or_lt_of_le nonneg with rfl | pos
    · rw [rounded_zero]
      exact tooLarge_pos
    · exact rounded_lt_of_inRange pos inRange
  have size : stored v = rounded v := by
    have positive := stored_signed .positive nonneg
    rwa [signed_positive, signed_positive, min_eq_left small.le] at positive
  rw [size] at h
  refine hasValue_of_value? (value?_of_level? h ?_) (rounded_nonneg v)
  rw [abs_of_nonneg (rounded_nonneg v)]
  exact small

/-- A whole number is converted to its nearest double. -/
theorem hasValue_ofNat_rounded {n : Nat} (inRange : InRange n) :
    HasValue (Float.ofNat n) (rounded n) := by
  rcases Nat.eq_zero_or_pos n with rfl | pos
  · rw [Nat.cast_zero, rounded_zero]
    exact .zero .positive rfl
  · have form := @unpack_ofScientific n 0 false pos (by simp) nofun
    rw [if_neg (by decide), Nat.cast_zero, zpow_zero, mul_one] at form
    have above : (0 : ℚ) < n := by exact_mod_cast pos
    have level := level?_of_nearest above form
    rw [signed_positive] at level
    exact hasValue_of_stored level above.le inRange

theorem one_le_rounded {v : ℚ} (h : 1 ≤ v) : 1 ≤ rounded v := by
  have double : IsDouble 1 := by exact_mod_cast @isDouble_natCast 1 (by decide)
  have one : rounded 1 = 1 := rounded_of_isDouble double
  rw [← one]
  exact rounded_mono (by norm_num) h

theorem HasValue.nonneg {x : Float} {v : ℚ} (h : HasValue x v) : 0 ≤ v := by
  cases h with
  | zero s form => exact le_rfl
  | positive m q pos form => exact (mantissa_pos q pos).le

/-- The value of a sum is the exact sum, rounded. -/
theorem HasValue.add {x y : Float} {a b : ℚ} (hx : HasValue x a) (hy : HasValue y b)
    (inRange : InRange (a + b)) : HasValue (x + y) (rounded (a + b)) :=
  hasValue_of_stored (level?_add hx.value?_eq hy.value?_eq) (add_nonneg hx.nonneg hy.nonneg) inRange

/-- The value of a difference that is not below zero is the exact difference, rounded, whatever the
signs of the two doubles are. -/
theorem hasValue_sub {x y : Float} {a b : ℚ} (hx : value? x = some a) (hy : value? y = some b)
    (upto : b ≤ a) (inRange : InRange (a - b)) : HasValue (x - y) (rounded (a - b)) :=
  hasValue_of_stored (level?_sub hx hy) (sub_nonneg.mpr upto) inRange

/-- The value of a product is the exact product, rounded. -/
theorem HasValue.mul {x y : Float} {a b : ℚ} (hx : HasValue x a) (hy : HasValue y b)
    (inRange : InRange (a * b)) : HasValue (x * y) (rounded (a * b)) :=
  hasValue_of_stored (level?_mul hx.value?_eq hy.value?_eq) (mul_nonneg hx.nonneg hy.nonneg) inRange

/-- The value of a quotient is the exact quotient, rounded. -/
theorem HasValue.div {x y : Float} {a b : ℚ} (hx : HasValue x a) (hy : HasValue y b)
    (pos : 0 < b) (inRange : InRange (a / b)) : HasValue (x / y) (rounded (a / b)) :=
  hasValue_of_stored (level?_div hx.value?_eq hy.value?_eq pos.ne')
    (div_nonneg hx.nonneg hy.nonneg) inRange

/-! ### Zeros -/

section Zeros

variable {x y : Float} {b : ℚ}

/-- What is stored as the value of a double has that value. -/
theorem value?_of_stored (h : level? x = some (stored b)) (hy : value? y = some b) :
    value? x = some b := by
  rw [stored_of_value? hy] at h
  exact value?_of_level? h (abs_lt_of_value? hy)

theorem value?_zero_add (hx : value? x = some 0) (hy : value? y = some b) :
    value? (x + y) = some b := by
  have sum := level?_add hx hy
  rw [zero_add] at sum
  exact value?_of_stored sum hy

theorem value?_zero_mul (hx : value? x = some 0) (hy : value? y = some b) :
    value? (x * y) = some 0 := by
  have product := level?_mul hx hy
  rw [zero_mul] at product
  exact value?_of_stored product value?_zero

theorem value?_mul_zero (hx : value? x = some b) (hy : value? y = some 0) :
    value? (x * y) = some 0 := by
  have product := level?_mul hx hy
  rw [mul_zero] at product
  exact value?_of_stored product value?_zero

theorem value?_zero_div (hx : value? x = some 0) (hy : value? y = some b) (nonzero : b ≠ 0) :
    value? (x / y) = some 0 := by
  have quotient := level?_div hx hy nonzero
  rw [zero_div] at quotient
  exact value?_of_stored quotient value?_zero

theorem value?_div_one (hx : value? x = some b) (hy : value? y = some 1) :
    value? (x / y) = some b := by
  have quotient := level?_div hx hy one_ne_zero
  rw [div_one] at quotient
  exact value?_of_stored quotient hx

/-- The doubles of value zero are the two zeros. -/
theorem zero_of_value? (h : value? x = some 0) : x = 0.0 ∨ x = -0.0 := by
  have negative : (-0.0 : Float).toModel.unpack = .zero .negative := rfl
  rcases value?_cases h with ⟨s, form, -⟩ | ⟨s, m, q, pos, -, size⟩
  · cases s with
    | positive => exact .inl (eq_of_unpack_eq form)
    | negative => exact .inr (eq_of_unpack_eq (form.trans negative.symm))
  · have above := mantissa_pos q pos
    rw [← abs_of_pos above, ← abs_signed s, ← apply_mul, ← size, abs_zero] at above
    exact absurd above (lt_irrefl 0)

theorem beq_zero_of_value? (h : value? x = some 0) : (x == 0.0) = true := by
  rcases zero_of_value? h with rfl | rfl
  · decide
  · decide

end Zeros

/-! ### Counts -/

section Counts

variable {n : Nat}

theorem value?_ofNat (word : n < UInt64.size) : value? (Float.ofNat n) = some (rounded n) := by
  have small : (n : ℚ) < 2 ^ (64 : Int) := by exact_mod_cast word
  have inRange : InRange n :=
    small.trans_le (zpow_le_zpow_right₀ (by norm_num) (by decide))
  exact (hasValue_ofNat_rounded inRange).value?_eq

theorem rounded_pos (pos : 0 < n) : 0 < rounded (n : ℚ) := by
  have least := @one_le_rounded n (by exact_mod_cast pos)
  linarith

theorem isFinite_ofNat (word : n < UInt64.size) : (Float.ofNat n).isFinite = true := by
  rw [← isSome_value?, value?_ofNat word]
  rfl

theorem ofNat_pos (word : n < UInt64.size) (pos : 0 < n) : 0 < Float.ofNat n := by
  rw [lt_iff_of_level? level?_zero (level?_of_value? (value?_ofNat word))]
  exact rounded_pos pos

end Counts

end PriceSignals.Binary64
