/-
Module: PriceSignals.Proofs.FloatLevels
Purpose: Sums and products of any two doubles. Where a result stands in the order is known from
  where its operands stand: NaN stays NaN, an infinity absorbs what does not cancel it, and all else
  is stored rounded. So the sign of a zero has no influence, negation goes through both operations,
  and a sum grows with its operands wherever it is a number.
Main exports:
  Binary64.IsEnd, Binary64.sumLevel?, Binary64.productLevel?, Binary64.combine?,
  Binary64.combine?_eq_some_iff, Binary64.level?_eq_combine?, Binary64.level?_add_eq,
  Binary64.level?_mul_eq, Binary64.level?_neg_eq, Binary64.level?_sub_eq, Binary64.sumLevel?_neg,
  Binary64.productLevel?_neg, Binary64.beq_iff_level?, Binary64.add_mono, Binary64.sub_anti,
  Binary64.le_add_of_not_lt_zero, Binary64.sub_le_of_not_lt_zero, Binary64.not_mul_lt_zero
-/
import PriceSignals.Proofs.FloatMonotonicity
import PriceSignals.Proofs.FloatSign

namespace PriceSignals.Binary64

open Float.Model Float.Model.UnpackedFloat

/-! ### The places of results -/

/-- A place at an end of the order, where an infinity stands. -/
def IsEnd (a : ℚ) : Prop := |a| = tooLarge

instance (a : ℚ) : Decidable (IsEnd a) := inferInstanceAs (Decidable (|a| = tooLarge))

/-- The place of a sum. Opposite infinities have none. -/
def sumLevel? (a b : ℚ) : Option ℚ :=
  if IsEnd a then if b = -a then none else some a
  else if IsEnd b then some b
  else some (stored (a + b))

/-- The place of a product. Zero times an infinity has none. -/
def productLevel? (a b : ℚ) : Option ℚ :=
  if IsEnd a ∨ IsEnd b then
    if a * b = 0 then none else some (if 0 < a * b then tooLarge else -tooLarge)
  else some (stored (a * b))

theorem isEnd_signed (s : Sign) : IsEnd (signed s tooLarge) := by
  rw [IsEnd, abs_signed, abs_of_pos tooLarge_pos]

theorem not_isEnd_of_value? {x : Float} {a : ℚ} (h : value? x = some a) : ¬ IsEnd a :=
  (abs_lt_of_value? h).ne

theorem IsEnd.eq_or_eq {a : ℚ} (h : IsEnd a) : a = tooLarge ∨ a = -tooLarge :=
  eq_or_eq_neg_of_abs_eq h

/-- All places are between the ends. -/
theorem abs_le_of_level? {x : Float} {a : ℚ} (h : level? x = some a) : |a| ≤ tooLarge := by
  rcases level?_cases h with value | ⟨s, -, rfl⟩
  · exact (abs_lt_of_value? value).le
  · exact (isEnd_signed s).le

theorem value?_of_not_isEnd {x : Float} {a : ℚ} (h : level? x = some a) (inner : ¬ IsEnd a) :
    value? x = some a :=
  value?_of_level? h (lt_of_le_of_ne (abs_le_of_level? h) inner)

theorem unpack_of_level?_eq_none {x : Float} (h : level? x = none) :
    x.toModel.unpack = .notANumber := by
  unfold level? value? at h
  cases form : x.toModel.unpack with
  | notANumber => rfl
  | _ =>
      simp only [form] at h
      cases h

theorem level?_of_notANumber {x : Float} (form : x.toModel.unpack = .notANumber) :
    level? x = none := by
  simp only [level?, value?, form]

/-! ### Operations on places -/

/-- The place that an operation makes of two places. Where one of them is missing, it makes none. -/
def combine? (g : ℚ → ℚ → Option ℚ) (p q : Option ℚ) : Option ℚ :=
  p.bind fun a => q.bind fun b => g a b

theorem combine?_eq_some_iff {g : ℚ → ℚ → Option ℚ} {p q : Option ℚ} {c : ℚ} :
    combine? g p q = some c ↔ ∃ a b, p = some a ∧ q = some b ∧ g a b = some c := by
  rw [combine?, Option.bind_eq_some_iff]
  constructor
  · rintro ⟨a, left, rest⟩
    obtain ⟨b, right, result⟩ := Option.bind_eq_some_iff.mp rest
    exact ⟨a, b, left, right, result⟩
  · rintro ⟨a, b, left, right, result⟩
    exact ⟨a, left, Option.bind_eq_some_iff.mpr ⟨b, right, result⟩⟩

/-- Where a result has no place unless both operands have one, it is enough to know it there. -/
theorem level?_eq_combine? {g : ℚ → ℚ → Option ℚ} {x y z : Float}
    (absorbs : level? x = none ∨ level? y = none → level? z = none)
    (places : ∀ a b, level? x = some a → level? y = some b → level? z = g a b) :
    level? z = combine? g (level? x) (level? y) := by
  cases hx : level? x with
  | none => exact absorbs (.inl hx)
  | some a =>
      cases hy : level? y with
      | none => exact absorbs (.inr hy)
      | some b => exact places a b hx hy

/-- An operation that makes NaN of NaN has a place only where both operands have one. -/
theorem level?_eq_none_of_absorbs {op : UnpackedFloat → UnpackedFloat → UnpackedFloat}
    (left : ∀ v, op .notANumber v = .notANumber) (right : ∀ u, op u .notANumber = .notANumber)
    {x y z : Float} (opened : z.toModel.unpack
      = (Float.Model.pack (op x.toModel.unpack y.toModel.unpack)).unpack)
    (h : level? x = none ∨ level? y = none) : level? z = none := by
  have absorbed : op x.toModel.unpack y.toModel.unpack = .notANumber := by
    rcases h with hx | hy
    · rw [unpack_of_level?_eq_none hx, left]
    · rw [unpack_of_level?_eq_none hy, right]
  rw [absorbed] at opened
  exact level?_of_notANumber (opened.trans unpack_pack_notANumber)

/-! ### Sums -/

theorem sumLevel?_of_inner {a b : ℚ} (ha : ¬ IsEnd a) (hb : ¬ IsEnd b) :
    sumLevel? a b = some (stored (a + b)) := by
  rw [sumLevel?, if_neg ha, if_neg hb]

/-- An infinity and something finite. -/
theorem ne_neg_of_isEnd {a b : ℚ} (ha : IsEnd a) (hb : ¬ IsEnd b) : b ≠ -a := by
  rintro rfl
  rw [IsEnd, abs_neg] at hb
  exact hb ha

/-- An infinity that is added decides where the sum stands, if it stands anywhere. -/
theorem eq_of_sumLevel?_end {a b c : ℚ} (hb : IsEnd b) (sum : sumLevel? a b = some c) :
    c = b := by
  unfold sumLevel? at sum
  by_cases ha : IsEnd a
  · rw [if_pos ha, Option.ite_none_left_eq_some] at sum
    have uncancelled : ¬ a = -b := fun opposite => sum.1 (by rw [opposite, neg_neg])
    have same : a = c := Option.some.inj sum.2
    rw [← same]
    exact (abs_eq_abs.mp (ha.trans hb.symm)).resolve_right uncancelled
  · rw [if_neg ha, if_pos hb] at sum
    exact (Option.some.inj sum).symm

/-- Infinities of one sign add up to that infinity, and opposite ones to NaN. -/
theorem level?_infinity_add_infinity {x y : Float} {s t : Sign}
    (hx : x.toModel.unpack = .infinity s) (hy : y.toModel.unpack = .infinity t) :
    level? (x + y) = sumLevel? (signed s tooLarge) (signed t tooLarge) := by
  have sum : (x + y).toModel.unpack = (Float.Model.pack
      (UnpackedFloat.add .binary64 x.toModel.unpack y.toModel.unpack)).unpack := rfl
  have apart : -tooLarge < tooLarge := neg_lt_self tooLarge_pos
  rw [hx, hy] at sum
  rw [sumLevel?, if_pos (isEnd_signed s)]
  cases s with
  | positive =>
      cases t with
      | positive =>
          rw [signed_positive, if_neg apart.ne']
          exact level?_of_infinity (sum.trans (unpack_pack_infinity _))
      | negative =>
          rw [signed_negative, signed_positive, if_pos rfl]
          exact level?_of_notANumber (sum.trans unpack_pack_notANumber)
  | negative =>
      cases t with
      | positive =>
          rw [signed_negative, signed_positive, if_pos (neg_neg tooLarge).symm]
          exact level?_of_notANumber (sum.trans unpack_pack_notANumber)
      | negative =>
          have level := level?_of_infinity (sum.trans (unpack_pack_infinity _))
          rw [signed_negative] at level
          rw [signed_negative, neg_neg, if_neg apart.ne]
          exact level

theorem sumLevel?_comm (a b : ℚ) : sumLevel? a b = sumLevel? b a := by
  unfold sumLevel?
  by_cases ha : IsEnd a
  · by_cases hb : IsEnd b
    · rw [if_pos ha, if_pos hb]
      by_cases opposite : b = -a
      · rw [if_pos opposite, if_pos (by rw [opposite, neg_neg])]
      · have same : b = a := (abs_eq_abs.mp (hb.trans ha.symm)).resolve_right opposite
        rw [same]
    · rw [if_pos ha, if_neg hb, if_pos ha, if_neg (ne_neg_of_isEnd ha hb)]
  · by_cases hb : IsEnd b
    · rw [if_neg ha, if_pos hb, if_pos hb, if_neg (ne_neg_of_isEnd hb ha)]
    · rw [if_neg ha, if_neg hb, if_neg hb, if_neg ha, add_comm]

theorem level?_add_of_some {x y : Float} {a b : ℚ} (hx : level? x = some a)
    (hy : level? y = some b) : level? (x + y) = sumLevel? a b := by
  rcases level?_cases hx with value | ⟨s, form, rfl⟩
  · have inner := not_isEnd_of_value? value
    rcases level?_cases hy with value' | ⟨t, form', rfl⟩
    · rw [sumLevel?_of_inner inner (not_isEnd_of_value? value'), level?_add value value']
    · rw [sumLevel?, if_neg inner, if_pos (isEnd_signed t), level?_add_infinity value form']
  · rcases level?_cases hy with value' | ⟨t, form', rfl⟩
    · have uncancelled := ne_neg_of_isEnd (isEnd_signed s) (not_isEnd_of_value? value')
      rw [sumLevel?, if_pos (isEnd_signed s), if_neg uncancelled, level?_infinity_add form value']
    · exact level?_infinity_add_infinity form form'

/-- Where a sum stands is known from where its operands stand. -/
theorem level?_add_eq (x y : Float) :
    level? (x + y) = combine? sumLevel? (level? x) (level? y) := by
  apply level?_eq_combine?
  · exact level?_eq_none_of_absorbs (fun _ => rfl) (fun u => by cases u <;> rfl) rfl
  · exact fun a b => level?_add_of_some

/-- The places behind the place of a sum. -/
theorem exists_level?_of_add {x y : Float} {c : ℚ} (h : level? (x + y) = some c) :
    ∃ a b, level? x = some a ∧ level? y = some b ∧ sumLevel? a b = some c :=
  combine?_eq_some_iff.mp ((level?_add_eq x y).symm.trans h)

/-! ### Products -/

theorem ne_zero_of_isEnd {a : ℚ} (h : IsEnd a) : a ≠ 0 := by
  rintro rfl
  exact tooLarge_pos.ne ((abs_zero).symm.trans h)

/-- With an infinity among them, numbers other than zero have a product that is infinite. -/
theorem productLevel?_of_signed {a b v : ℚ} {s : Sign} (some_end : IsEnd a ∨ IsEnd b) (pos : 0 < v)
    (product : a * b = signed s v) : productLevel? a b = some (signed s tooLarge) := by
  rw [productLevel?, if_pos some_end, product]
  cases s with
  | positive => rw [signed_positive, if_neg pos.ne', if_pos pos, signed_positive]
  | negative =>
      have below : -v < 0 := neg_neg_of_pos pos
      rw [signed_negative, if_neg below.ne, if_neg below.not_gt, signed_negative]

theorem productLevel?_of_zero {a b : ℚ} (some_end : IsEnd a ∨ IsEnd b) (zero : a * b = 0) :
    productLevel? a b = none := by
  rw [productLevel?, if_pos some_end, if_pos zero]

/-- An infinity times a number. -/
theorem level?_infinity_mul_eq {x y : Float} {s : Sign} {b : ℚ}
    (hx : x.toModel.unpack = .infinity s) (hy : level? y = some b) :
    level? (x * y) = productLevel? (signed s tooLarge) b := by
  have product : (x * y).toModel.unpack = (Float.Model.pack
      (UnpackedFloat.mul .binary64 x.toModel.unpack y.toModel.unpack)).unpack := rfl
  have positive := tooLarge_pos
  have outer : IsEnd (signed s tooLarge) ∨ IsEnd b := .inl (isEnd_signed s)
  rcases level?_cases hy with value | ⟨t, form, rfl⟩
  · rcases value?_cases value with ⟨t, form, rfl⟩ | ⟨t, m, q, pos, form, rfl⟩
    · rw [hx, form] at product
      rw [productLevel?_of_zero outer (mul_zero _)]
      exact level?_of_notANumber (product.trans unpack_pack_notANumber)
    · rw [hx, form] at product
      rw [productLevel?_of_signed outer (mul_pos positive (mantissa_pos q pos))
        (by rw [apply_mul, signed_mul])]
      exact level?_of_infinity (product.trans (unpack_pack_infinity _))
  · rw [hx, form] at product
    rw [productLevel?_of_signed outer (mul_pos positive positive) (signed_mul s t _ _)]
    exact level?_of_infinity (product.trans (unpack_pack_infinity _))

theorem level?_mul_infinity_eq {x y : Float} {a : ℚ} {t : Sign} (hx : value? x = some a)
    (hy : y.toModel.unpack = .infinity t) :
    level? (x * y) = productLevel? a (signed t tooLarge) := by
  have product : (x * y).toModel.unpack = (Float.Model.pack
      (UnpackedFloat.mul .binary64 x.toModel.unpack y.toModel.unpack)).unpack := rfl
  have outer : IsEnd a ∨ IsEnd (signed t tooLarge) := .inr (isEnd_signed t)
  rcases value?_cases hx with ⟨s, form, rfl⟩ | ⟨s, m, q, pos, form, rfl⟩
  · rw [form, hy] at product
    rw [productLevel?_of_zero outer (zero_mul _)]
    exact level?_of_notANumber (product.trans unpack_pack_notANumber)
  · rw [form, hy] at product
    rw [productLevel?_of_signed outer (mul_pos (mantissa_pos q pos) tooLarge_pos)
      (by rw [apply_mul, signed_mul])]
    exact level?_of_infinity (product.trans (unpack_pack_infinity _))

theorem level?_mul_of_some {x y : Float} {a b : ℚ} (hx : level? x = some a)
    (hy : level? y = some b) : level? (x * y) = productLevel? a b := by
  rcases level?_cases hx with value | ⟨s, form, rfl⟩
  · rcases level?_cases hy with value' | ⟨t, form', rfl⟩
    · have inner : ¬ (IsEnd a ∨ IsEnd b) :=
        not_or.mpr ⟨not_isEnd_of_value? value, not_isEnd_of_value? value'⟩
      rw [productLevel?, if_neg inner, level?_mul value value']
    · exact level?_mul_infinity_eq value form'
  · exact level?_infinity_mul_eq form hy

/-- Where a product stands is known from where its operands stand. -/
theorem level?_mul_eq (x y : Float) :
    level? (x * y) = combine? productLevel? (level? x) (level? y) := by
  apply level?_eq_combine?
  · exact level?_eq_none_of_absorbs (fun _ => rfl) (fun u => by cases u <;> rfl) rfl
  · exact fun a b => level?_mul_of_some

/-- The places behind the place of a product. -/
theorem exists_level?_of_mul {x y : Float} {c : ℚ} (h : level? (x * y) = some c) :
    ∃ a b, level? x = some a ∧ level? y = some b ∧ productLevel? a b = some c :=
  combine?_eq_some_iff.mp ((level?_mul_eq x y).symm.trans h)

/-- The factors of a finite product are finite. -/
theorem exists_value?_of_mul {x y : Float} {v : ℚ} (h : value? (x * y) = some v) :
    ∃ a b, value? x = some a ∧ value? y = some b := by
  obtain ⟨a, b, ha, hb, product⟩ := exists_level?_of_mul (level?_of_value? h)
  have inner : ¬ (IsEnd a ∨ IsEnd b) := by
    intro outer
    rw [productLevel?, if_pos outer, Option.ite_none_left_eq_some] at product
    have size := abs_lt_of_value? h
    rw [← Option.some.inj product.2] at size
    split_ifs at size
    · exact (isEnd_signed .positive).not_lt size
    · exact (isEnd_signed .negative).not_lt size
  obtain ⟨left, right⟩ := not_or.mp inner
  exact ⟨a, b, value?_of_not_isEnd ha left, value?_of_not_isEnd hb right⟩

/-! ### Negation -/

theorem stored_neg (v : ℚ) : stored (-v) = -stored v := by
  have signs {w : ℚ} (nonneg : 0 ≤ w) : stored (-w) = -stored w := by
    have positive := stored_signed .positive nonneg
    have negative := stored_signed .negative nonneg
    rw [signed_positive, signed_positive] at positive
    rw [signed_negative, signed_negative] at negative
    rw [positive, negative]
  rcases le_total 0 v with nonneg | below
  · exact signs nonneg
  · have opposite := signs (neg_nonneg.mpr below)
    rw [neg_neg] at opposite
    rw [opposite, neg_neg]

theorem isEnd_neg_iff {a : ℚ} : IsEnd (-a) ↔ IsEnd a := by
  rw [IsEnd, IsEnd, abs_neg]

theorem sumLevel?_neg (a b : ℚ) : sumLevel? (-a) (-b) = (sumLevel? a b).map (-·) := by
  simp only [sumLevel?, isEnd_neg_iff, neg_inj, ← neg_add, stored_neg]
  split_ifs
  · rw [Option.map_none]
  · rw [Option.map_some]
  · rw [Option.map_some]
  · rw [Option.map_some]

theorem productLevel?_neg (a b : ℚ) : productLevel? (-a) b = (productLevel? a b).map (-·) := by
  simp only [productLevel?, isEnd_neg_iff, neg_mul, neg_eq_zero, neg_pos, stored_neg]
  by_cases outer : IsEnd a ∨ IsEnd b
  · rw [if_pos outer, if_pos outer]
    rcases lt_trichotomy (a * b) 0 with below | zero | above
    · rw [if_neg below.ne, if_neg below.ne, if_pos below, if_neg below.not_gt, Option.map_some,
        neg_neg]
    · rw [if_pos zero, if_pos zero, Option.map_none]
    · rw [if_neg above.ne', if_neg above.ne', if_neg above.not_gt, if_pos above, Option.map_some]
  · rw [if_neg outer, if_neg outer, Option.map_some]

/-- The negative of a double stands opposite to it. -/
theorem level?_neg_eq (x : Float) : level? (-x) = (level? x).map (-·) := by
  cases hx : level? x with
  | some a => exact level?_neg hx
  | none =>
      have negated : (-x).toModel.unpack = .notANumber := by
        rw [unpack_neg, unpack_of_level?_eq_none hx]
        rfl
      exact level?_of_notANumber negated

/-- Where a difference stands is known from where its operands stand. -/
theorem level?_sub_eq (x y : Float) :
    level? (x - y) = combine? (fun a b => sumLevel? a (-b)) (level? x) (level? y) := by
  rw [sub_eq_add, level?_add_eq, level?_neg_eq]
  cases level? x <;> cases level? y <;> rfl

/-- The places behind the place of a difference. -/
theorem exists_level?_of_sub {x y : Float} {c : ℚ} (h : level? (x - y) = some c) :
    ∃ a b, level? x = some a ∧ level? y = some b ∧ sumLevel? a (-b) = some c :=
  combine?_eq_some_iff.mp ((level?_sub_eq x y).symm.trans h)

/-! ### Equality -/

/-- Doubles are equal as numbers where they stand at one place. -/
theorem beq_iff_level? {x y : Float} :
    (x == y) = true ↔ ∃ a, level? x = some a ∧ level? y = some a := by
  have opened : (x == y) = (ordering? x y == some .eq) := rfl
  rw [opened, beq_iff_eq]
  constructor
  · intro same
    obtain ⟨a, ha⟩ := exists_level? (isNaN_of_ordering? same).1
    obtain ⟨b, hb⟩ := exists_level? (isNaN_of_ordering? same).2
    rw [ordering?_of_level? ha hb, Option.some.injEq, compare_eq_iff_eq] at same
    exact ⟨a, ha, same ▸ hb⟩
  · rintro ⟨a, ha, hb⟩
    rw [ordering?_of_level? ha hb, compare_eq_iff_eq.mpr rfl]

/-! ### Order -/

/-- The order of doubles is that of their places; NaN has none. -/
theorem lt_iff_level? {x y : Float} :
    x < y ↔ ∃ a b, level? x = some a ∧ level? y = some b ∧ a < b := by
  constructor
  · intro h
    obtain ⟨hx, hy⟩ := isNaN_of_ordering? (lt_iff_ordering?.mp h)
    obtain ⟨a, ha⟩ := exists_level? hx
    obtain ⟨b, hb⟩ := exists_level? hy
    exact ⟨a, b, ha, hb, (lt_iff_of_level? ha hb).mp h⟩
  · rintro ⟨a, b, ha, hb, below⟩
    exact (lt_iff_of_level? ha hb).mpr below

theorem le_iff_level? {x y : Float} :
    x ≤ y ↔ ∃ a b, level? x = some a ∧ level? y = some b ∧ a ≤ b := by
  constructor
  · exact exists_level?_of_le
  · rintro ⟨a, b, ha, hb, below⟩
    exact (le_iff_of_level? ha hb).mpr below

theorem le_of_lt {x y : Float} (h : x < y) : x ≤ y := by
  obtain ⟨a, b, ha, hb, below⟩ := lt_iff_level?.mp h
  exact le_iff_level?.mpr ⟨a, b, ha, hb, below.le⟩

theorem lt_of_le_of_lt {x y z : Float} (hxy : x ≤ y) (hyz : y < z) : x < z := by
  obtain ⟨a, b, ha, hb, below⟩ := le_iff_level?.mp hxy
  obtain ⟨b', c, hb', hc, below'⟩ := lt_iff_level?.mp hyz
  obtain rfl : b = b' := Option.some.inj (hb.symm.trans hb')
  exact lt_iff_level?.mpr ⟨a, c, ha, hc, below.trans_lt below'⟩

theorem nonneg_of_not_lt_zero {x : Float} {a : ℚ} (above : ¬ x < 0) (h : level? x = some a) :
    0 ≤ a := by
  rwa [lt_iff_of_level? h level?_zero, not_lt] at above

/-- What has no place is NaN. -/
theorem level?_eq_none_iff {x : Float} : level? x = none ↔ x.isNaN = true := by
  have number := isSome_level? x
  cases place : level? x with
  | none =>
      rw [place] at number
      simpa using number
  | some a =>
      rw [place] at number
      simpa using number

/-! ### Sums that grow -/

/-- Where it exists, the place of a sum grows with what is added. -/
theorem sumLevel?_mono {a b b' c c' : ℚ} (least : -tooLarge ≤ b) (most : b' ≤ tooLarge)
    (h : b ≤ b') (hc : sumLevel? a b = some c) (hc' : sumLevel? a b' = some c') : c ≤ c' := by
  by_cases outer : IsEnd a
  · -- The infinity absorbs both.
    rw [sumLevel?_comm] at hc hc'
    rw [eq_of_sumLevel?_end outer hc, eq_of_sumLevel?_end outer hc']
  · rw [sumLevel?, if_neg outer] at hc hc'
    by_cases low : IsEnd b
    · rw [if_pos low] at hc
      obtain rfl := Option.some.inj hc
      by_cases high : IsEnd b'
      · rw [if_pos high] at hc'
        obtain rfl := Option.some.inj hc'
        exact h
      · rw [if_neg high] at hc'
        obtain rfl := Option.some.inj hc'
        rcases low.eq_or_eq with top | bottom
        · rw [top] at h low
          rw [le_antisymm most h] at high
          exact absurd low high
        · rw [bottom]
          exact neg_le_stored _
    · rw [if_neg low] at hc
      obtain rfl := Option.some.inj hc
      by_cases high : IsEnd b'
      · rw [if_pos high] at hc'
        obtain rfl := Option.some.inj hc'
        rcases high.eq_or_eq with top | bottom
        · rw [top]
          exact stored_le _
        · rw [bottom] at h high
          rw [le_antisymm h least] at low
          exact absurd high low
      · rw [if_neg high] at hc'
        obtain rfl := Option.some.inj hc'
        exact stored_mono (add_le_add_right h a)

section Growing

variable {x v w : Float}

/-- A sum grows with what is added, wherever both sums are numbers. -/
theorem add_mono (number : (x + v).isNaN = false) (number' : (x + w).isNaN = false)
    (h : v ≤ w) : x + v ≤ x + w := by
  obtain ⟨c, hc⟩ := exists_level? number
  obtain ⟨c', hc'⟩ := exists_level? number'
  obtain ⟨a, b, ha, hb, sum⟩ := exists_level?_of_add hc
  obtain ⟨a', b', ha', hb', sum'⟩ := exists_level?_of_add hc'
  obtain rfl : a = a' := Option.some.inj (ha.symm.trans ha')
  have least := (abs_le.mp (abs_le_of_level? hb)).1
  have most := (abs_le.mp (abs_le_of_level? hb')).2
  rw [le_iff_of_level? hc hc']
  exact sumLevel?_mono least most ((le_iff_of_level? hb hb').mp h) sum sum'

/-- A difference falls where more is taken away. -/
theorem sub_anti (number : (x - v).isNaN = false) (number' : (x - w).isNaN = false)
    (h : v ≤ w) : x - w ≤ x - v := by
  rw [sub_eq_add] at number number'
  rw [sub_eq_add, sub_eq_add]
  exact add_mono number' number (neg_anti h)

/-- A sum stays a number where a finite number takes the place of what is added. -/
theorem isNaN_add_of_isFinite (number : (x + v).isNaN = false) (finite : w.isFinite = true) :
    (x + w).isNaN = false := by
  obtain ⟨c, hc⟩ := exists_level? number
  obtain ⟨a, b, ha, -⟩ := exists_level?_of_add hc
  exact isNaN_add (isNaN_of_level? ha) finite

theorem isNaN_sub_of_isFinite (number : (x - v).isNaN = false) (finite : w.isFinite = true) :
    (x - w).isNaN = false := by
  obtain ⟨b, hb⟩ := exists_value? finite
  have negated : (-w).isFinite = true := by
    rw [← isSome_value?, value?_neg hb]
    rfl
  rw [sub_eq_add] at number ⊢
  exact isNaN_add_of_isFinite number negated

/-! ### Steps to one side -/

theorem sumLevel?_zero {a : ℚ} (h : level? x = some a) : sumLevel? a 0 = some a := by
  by_cases outer : IsEnd a
  · have uncancelled : (0 : ℚ) ≠ -a := (neg_ne_zero.mpr (ne_zero_of_isEnd outer)).symm
    rw [sumLevel?, if_pos outer, if_neg uncancelled]
  · have inner : ¬ IsEnd (0 : ℚ) := not_isEnd_of_value? value?_zero
    rw [sumLevel?_of_inner outer inner, add_zero, stored_of_value? (value?_of_not_isEnd h outer)]

/-- Adding what is not below zero does not lead down. -/
theorem le_add_of_not_lt_zero (above : ¬ w < 0) (number : (x + w).isNaN = false) :
    x ≤ x + w := by
  obtain ⟨c, hc⟩ := exists_level? number
  obtain ⟨a, b, ha, hb, sum⟩ := exists_level?_of_add hc
  have least : -tooLarge ≤ 0 := neg_nonpos.mpr tooLarge_pos.le
  have most := (abs_le.mp (abs_le_of_level? hb)).2
  rw [le_iff_of_level? ha hc]
  exact sumLevel?_mono least most (nonneg_of_not_lt_zero above hb) (sumLevel?_zero ha) sum

/-- Taking away what is not below zero does not lead up. -/
theorem sub_le_of_not_lt_zero (above : ¬ w < 0) (number : (x - w).isNaN = false) :
    x - w ≤ x := by
  obtain ⟨c, hc⟩ := exists_level? number
  obtain ⟨a, b, ha, hb, sum⟩ := exists_level?_of_sub hc
  have least : -tooLarge ≤ -b := neg_le_neg (abs_le.mp (abs_le_of_level? hb)).2
  have step : -b ≤ 0 := neg_nonpos.mpr (nonneg_of_not_lt_zero above hb)
  rw [le_iff_of_level? hc ha]
  exact sumLevel?_mono least tooLarge_pos.le step sum (sumLevel?_zero ha)

/-- Where something is above a difference, no infinity has been taken away, and where something is
below a sum, none has been added. -/
theorem exists_value?_of_lt_sub (above : ¬ w < 0) (h : x < v - w) : ∃ b, value? w = some b := by
  obtain ⟨p, c, hp, hc, less⟩ := lt_iff_level?.mp h
  obtain ⟨a, b, -, hb, sum⟩ := exists_level?_of_sub hc
  refine ⟨b, value?_of_not_isEnd hb fun outer => ?_⟩
  have bottom : c = -tooLarge := by
    rw [eq_of_sumLevel?_end (isEnd_neg_iff.mpr outer) sum, ← outer,
      abs_of_nonneg (nonneg_of_not_lt_zero above hb)]
  rw [bottom] at less
  exact less.not_ge (abs_le.mp (abs_le_of_level? hp)).1

theorem exists_value?_of_add_lt (above : ¬ w < 0) (h : v + w < x) : ∃ b, value? w = some b := by
  obtain ⟨c, p, hc, hp, less⟩ := lt_iff_level?.mp h
  obtain ⟨a, b, -, hb, sum⟩ := exists_level?_of_add hc
  refine ⟨b, value?_of_not_isEnd hb fun outer => ?_⟩
  have top : c = tooLarge := by
    rw [eq_of_sumLevel?_end outer sum, ← outer, abs_of_nonneg (nonneg_of_not_lt_zero above hb)]
  rw [top] at less
  exact less.not_ge (abs_le.mp (abs_le_of_level? hp)).2

/-- A square is not below zero: both factors have one sign, if any. -/
theorem not_mul_self_lt_zero (x : Float) : ¬ x * x < 0 := by
  rw [lt_zero_iff]
  intro below
  obtain ⟨s, t, hs, ht, product⟩ := sign?_mul below.of_unpack_pack.sign?
  obtain rfl : s = t := Option.some.inj (hs.symm.trans ht)
  cases s <;> cases product

/-- A product of what is not below zero is not below zero. -/
theorem not_mul_lt_zero (hv : ¬ v < 0) (hw : ¬ w < 0) : ¬ v * w < 0 := by
  intro below
  obtain ⟨c, zero, hc, hz, less⟩ := lt_iff_level?.mp below
  obtain rfl : 0 = zero := Option.some.inj (level?_zero.symm.trans hz)
  obtain ⟨a, b, ha, hb, product⟩ := exists_level?_of_mul hc
  have nonneg : 0 ≤ a * b :=
    mul_nonneg (nonneg_of_not_lt_zero hv ha) (nonneg_of_not_lt_zero hw hb)
  unfold productLevel? at product
  by_cases outer : IsEnd a ∨ IsEnd b
  · rw [if_pos outer, Option.ite_none_left_eq_some] at product
    have above : 0 < a * b := lt_of_le_of_ne nonneg (Ne.symm product.1)
    rw [if_pos above] at product
    rw [← Option.some.inj product.2] at less
    exact less.not_gt tooLarge_pos
  · rw [if_neg outer] at product
    rw [← Option.some.inj product, ← stored_zero] at less
    exact less.not_ge (stored_mono nonneg)

end Growing

end PriceSignals.Binary64
