/-
Module: PriceSignals.Proofs.FloatMonotonicity
Purpose: The operations on doubles keep the order or turn it around, also where they overflow and
  where an infinity goes in. Only one side of each operation may vary, the other one is finite.
Main exports:
  Binary64.const_add_mono, Binary64.add_const_mono, Binary64.mul_const_mono,
  Binary64.div_const_mono, Binary64.const_sub_anti, Binary64.const_div_anti
-/
import PriceSignals.Proofs.FloatOperations

namespace PriceSignals.Binary64

open Float.Model Float.Model.UnpackedFloat

theorem exists_value? {x : Float} (finite : x.isFinite = true) : ∃ v, value? x = some v := by
  rwa [← Option.isSome_iff_exists, isSome_value?]

/-- The greatest double. -/
def infinity : Float := 1.0 / 0.0

theorem le_infinity {x : Float} (number : x.isNaN = false) : x ≤ infinity := by
  have top : level? infinity = some (signed .positive tooLarge) :=
    @level?_of_infinity infinity .positive rfl
  obtain ⟨a, ha⟩ := exists_level? number
  rw [le_iff_of_level? ha top, signed_positive]
  have size : |a| ≤ tooLarge := by
    rcases level?_cases ha with value | ⟨s, -, rfl⟩
    · exact (abs_lt_of_value? value).le
    · rw [abs_signed, abs_of_pos tooLarge_pos]
  exact (le_abs_self a).trans size

/-! ### Operations that keep the order -/

/-- A function of doubles keeps the order if it stores a result that grows with its argument, and
leaves the infinities where they are. -/
theorem mono_of_stored {f : Float → Float} {g : ℚ → ℚ} (grows : Monotone g)
    (finite : ∀ {x a}, value? x = some a → level? (f x) = some (stored (g a)))
    (infinite : ∀ {x s}, x.toModel.unpack = .infinity s → level? (f x) = some (signed s tooLarge))
    {x y : Float} (h : x ≤ y) : f x ≤ f y := by
  obtain ⟨a, b, ha, hb, below⟩ := exists_level?_of_le h
  rcases level?_cases ha with value | ⟨s, form, rfl⟩
  · have bounds := abs_lt.mp (abs_lt_of_value? value)
    rcases level?_cases hb with value' | ⟨t, form', rfl⟩
    · exact (le_iff_of_level? (finite value) (finite value')).mpr (stored_mono (grows below))
    · refine (le_iff_of_level? (finite value) (infinite form')).mpr ?_
      cases t with
      | positive => exact stored_le _
      | negative =>
          rw [signed_negative] at below
          linarith
  · rcases level?_cases hb with value' | ⟨t, form', rfl⟩
    · have bounds := abs_lt.mp (abs_lt_of_value? value')
      refine (le_iff_of_level? (infinite form) (finite value')).mpr ?_
      cases s with
      | negative => exact neg_le_stored _
      | positive =>
          rw [signed_positive] at below
          linarith
    · exact (le_iff_of_level? (infinite form) (infinite form')).mpr below

/-! ### Infinities as arguments -/

section Infinities

variable {x y : Float} {a : ℚ} {s : Sign}

theorem level?_add_infinity (hx : value? x = some a) (hy : y.toModel.unpack = .infinity s) :
    level? (x + y) = some (signed s tooLarge) := by
  have sum : (x + y).toModel.unpack = (Float.Model.pack
      (UnpackedFloat.add .binary64 x.toModel.unpack y.toModel.unpack)).unpack := rfl
  rw [hy] at sum
  rcases value?_cases hx with ⟨t, form, -⟩ | ⟨t, m, q, pos, form, -⟩
  · rw [form] at sum
    exact level?_of_infinity (sum.trans (unpack_pack_infinity s))
  · rw [form] at sum
    exact level?_of_infinity (sum.trans (unpack_pack_infinity s))

theorem level?_infinity_add (hx : x.toModel.unpack = .infinity s) (hy : value? y = some a) :
    level? (x + y) = some (signed s tooLarge) := by
  have sum : (x + y).toModel.unpack = (Float.Model.pack
      (UnpackedFloat.add .binary64 x.toModel.unpack y.toModel.unpack)).unpack := rfl
  rw [hx] at sum
  rcases value?_cases hy with ⟨t, form, -⟩ | ⟨t, m, q, pos, form, -⟩
  · rw [form] at sum
    exact level?_of_infinity (sum.trans (unpack_pack_infinity s))
  · rw [form] at sum
    exact level?_of_infinity (sum.trans (unpack_pack_infinity s))

/-- A double above zero has no minus sign. -/
theorem positive_of_value? (h : value? x = some a) (above : 0 < a) :
    ∃ m q pos, x.toModel.unpack = .finite .positive m q pos := by
  cases hasValue_of_value? h above.le with
  | zero s form => exact absurd above (lt_irrefl 0)
  | positive m q pos form => exact ⟨m, q, pos, form⟩

theorem level?_infinity_mul (hx : x.toModel.unpack = .infinity s) (hy : value? y = some a)
    (above : 0 < a) : level? (x * y) = some (signed s tooLarge) := by
  have product : (x * y).toModel.unpack = (Float.Model.pack
      (UnpackedFloat.mul .binary64 x.toModel.unpack y.toModel.unpack)).unpack := rfl
  obtain ⟨m, q, pos, form⟩ := positive_of_value? hy above
  rw [hx, form] at product
  have kept : s * .positive = s := by cases s <;> rfl
  rw [level?_of_infinity (product.trans (unpack_pack_infinity _)), kept]

theorem level?_infinity_div (hx : x.toModel.unpack = .infinity s) (hy : value? y = some a)
    (above : 0 < a) : level? (x / y) = some (signed s tooLarge) := by
  have quotient : (x / y).toModel.unpack = (Float.Model.pack
      (UnpackedFloat.div .binary64 x.toModel.unpack y.toModel.unpack)).unpack := rfl
  obtain ⟨m, q, pos, form⟩ := positive_of_value? hy above
  rw [hx, form] at quotient
  have kept : s / .positive = s := by cases s <;> rfl
  rw [level?_of_infinity (quotient.trans (unpack_pack_infinity _)), kept]

theorem level?_div_infinity (hx : value? x = some a) (hy : y.toModel.unpack = .infinity s) :
    level? (x / y) = some 0 := by
  have quotient : (x / y).toModel.unpack = (Float.Model.pack
      (UnpackedFloat.div .binary64 x.toModel.unpack y.toModel.unpack)).unpack := rfl
  rw [hy] at quotient
  rcases value?_cases hx with ⟨t, form, -⟩ | ⟨t, m, q, pos, form, -⟩
  · rw [form] at quotient
    exact level?_of_zero (quotient.trans (unpack_pack_zero _))
  · rw [form] at quotient
    exact level?_of_zero (quotient.trans (unpack_pack_zero _))

end Infinities

/-! ### The laws -/

section Laws

variable {c x y : Float}

theorem const_add_mono (finite : c.isFinite = true) (h : x ≤ y) : c + x ≤ c + y := by
  obtain ⟨k, hk⟩ := exists_value? finite
  have grows : Monotone (k + ·) := fun _ _ h => add_le_add_right h k
  exact @mono_of_stored (c + ·) _ grows (fun hx => level?_add hk hx)
    (fun hx => level?_add_infinity hk hx) x y h

theorem add_const_mono (finite : c.isFinite = true) (h : x ≤ y) : x + c ≤ y + c := by
  obtain ⟨k, hk⟩ := exists_value? finite
  have grows : Monotone (· + k) := fun _ _ h => add_le_add_left h k
  exact @mono_of_stored (· + c) _ grows (fun hx => level?_add hx hk)
    (fun hx => level?_infinity_add hx hk) x y h

theorem mul_const_mono (finite : c.isFinite = true) (pos : 0 < c) (h : x ≤ y) :
    x * c ≤ y * c := by
  obtain ⟨k, hk⟩ := exists_value? finite
  have above : 0 < k := (lt_iff_of_level? level?_zero (level?_of_value? hk)).mp pos
  have grows : Monotone (· * k) := fun _ _ h => mul_le_mul_of_nonneg_right h above.le
  exact @mono_of_stored (· * c) _ grows (fun hx => level?_mul hx hk)
    (fun hx => level?_infinity_mul hx hk above) x y h

theorem div_const_mono (finite : c.isFinite = true) (pos : 0 < c) (h : x ≤ y) :
    x / c ≤ y / c := by
  obtain ⟨k, hk⟩ := exists_value? finite
  have above : 0 < k := (lt_iff_of_level? level?_zero (level?_of_value? hk)).mp pos
  have grows : Monotone (· / k) := fun _ _ h => div_le_div_of_nonneg_right h above.le
  exact @mono_of_stored (· / c) _ grows (fun hx => level?_div hx hk above.ne')
    (fun hx => level?_infinity_div hx hk above) x y h

/-- A finite double, added, makes no NaN of a number, and neither does one above zero that is
multiplied with or divided by. -/
theorem isNaN_add (number : x.isNaN = false) (finite : c.isFinite = true) :
    (x + c).isNaN = false :=
  (isNaN_of_le (add_const_mono finite (le_refl number))).1

theorem isNaN_mul (number : x.isNaN = false) (finite : c.isFinite = true) (pos : 0 < c) :
    (x * c).isNaN = false :=
  (isNaN_of_le (mul_const_mono finite pos (le_refl number))).1

theorem isNaN_div (number : x.isNaN = false) (finite : c.isFinite = true) (pos : 0 < c) :
    (x / c).isNaN = false :=
  (isNaN_of_le (div_const_mono finite pos (le_refl number))).1

theorem neg_anti (h : x ≤ y) : -y ≤ -x := by
  obtain ⟨a, b, ha, hb, below⟩ := exists_level?_of_le h
  exact (le_iff_of_level? (level?_neg hb) (level?_neg ha)).mpr (neg_le_neg below)

theorem const_sub_anti (finite : c.isFinite = true) (h : x ≤ y) : c - y ≤ c - x := by
  rw [sub_eq_add, sub_eq_add]
  exact const_add_mono finite (neg_anti h)

/-- A quotient falls where the divisor grows. Over an infinity it is zero. -/
theorem const_div_anti (finite : c.isFinite = true) (nonneg : 0 ≤ c) (pos : 0 < x) (h : x ≤ y) :
    c / y ≤ c / x := by
  obtain ⟨k, hk⟩ := exists_value? finite
  obtain ⟨a, b, ha, hb, below⟩ := exists_level?_of_le h
  have least : 0 ≤ k := (le_iff_of_level? level?_zero (level?_of_value? hk)).mp nonneg
  have above : 0 < a := (lt_iff_of_level? level?_zero ha).mp pos
  rcases level?_cases ha with value | ⟨s, form, rfl⟩
  · have quotient := level?_div hk value above.ne'
    rcases level?_cases hb with value' | ⟨t, form', -⟩
    · have quotient' := level?_div hk value' (above.trans_le below).ne'
      exact (le_iff_of_level? quotient' quotient).mpr
        (stored_mono (div_le_div_of_nonneg_left least above below))
    · refine (le_iff_of_level? (level?_div_infinity hk form') quotient).mpr ?_
      rw [← stored_zero]
      exact stored_mono (div_nonneg least above.le)
  · rcases level?_cases hb with value' | ⟨t, form', -⟩
    · -- An infinity above zero is not below a finite double.
      have bounds := abs_lt.mp (abs_lt_of_value? value')
      have size : |signed s tooLarge| = tooLarge := by
        rw [abs_signed, abs_of_pos tooLarge_pos]
      rw [abs_of_pos above] at size
      linarith
    · have same := level?_div_infinity hk form
      exact (le_iff_of_level? (level?_div_infinity hk form') same).mpr le_rfl

end Laws

end PriceSignals.Binary64
