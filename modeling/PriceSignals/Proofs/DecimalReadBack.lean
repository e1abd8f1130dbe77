/-
Module: PriceSignals.Proofs.DecimalReadBack
Purpose: The text of a double is read as that double, be it finite, infinite or NaN.
Main exports:
  Digit.length_ofNat, Decimal.unpack_nearestDouble, Decimal.value_positionalParts,
  Decimal.Numeral.literal?_text, Decimal.everyday_parts, Decimal.displayText_cases,
  Decimal.isFinite_of_literal?, Decimal.read_everyday, Decimal.float?_displayText,
  Decimal.isBlank_displayText
-/
import PriceSignals.Decimal.Numeral
import PriceSignals.Decimal.Style
import PriceSignals.Proofs.ShortestDecimal

namespace PriceSignals

/-- A number with `k` digits is below `10 ^ k`, and not below `10 ^ (k - 1)` unless it is zero. -/
theorem Digit.length_ofNat (n : Nat) :
    0 < (ofNat n).length ∧ n < 10 ^ (ofNat n).length ∧
      (0 < n → 10 ^ (ofNat n).length ≤ 10 * n) := by
  induction n using Nat.strongRecOn with
  | _ n ih =>
    rw [ofNat]
    split
    · rename_i small
      simp only [List.length_singleton]
      omega
    · rename_i large
      obtain ⟨-, less, most⟩ := ih (n / 10) (by omega)
      have most := most (by omega)
      rw [List.length_append, List.length_singleton, pow_succ]
      omega

namespace Decimal

open Binary64 Float.Model

theorem zpow_add_ten (a b : Int) : (10 : ℚ) ^ (a + b) = 10 ^ a * 10 ^ b :=
  zpow_add₀ (by norm_num) a b

/-- The greatest doubles have 309 digits. -/
theorem greatest_order : 2 ^ 53 * 2 ^ 971 < 10 ^ 309 := by decide +kernel

/-- The least double has its first digit at the place 324 behind the point. -/
theorem least_order : 2 * 2 ^ 1074 < 10 ^ 324 := by decide +kernel

/-- A number in the interval of a double is of the order of magnitude of doubles. -/
theorem Around.order {m : Nat} {q : Int} {y : ℚ} (h : Around m q y) (canonical : Canonical m q) :
    (10 : ℚ) ^ (-324 : Int) < y * 2 ^ q ∧ y * 2 ^ q < 10 ^ (309 : Int) := by
  have gap : (lowerGap m q : ℚ) ≤ 2 := by exact_mod_cast lowerGap_le m q
  have one : (1 : ℚ) ≤ m := by exact_mod_cast canonical.pos
  have most : (m : ℚ) + 1 ≤ 2 ^ 53 := by exact_mod_cast canonical.lt
  have unit : (0 : ℚ) < 2 ^ q := zpow_pos (by norm_num) q
  have least : (2 : ℚ) ^ (-1074 : Int) ≤ 2 ^ q := zpow_le_zpow_right₀ (by norm_num) canonical.least
  have greatest : (2 : ℚ) ^ q ≤ 2 ^ (971 : Int) :=
    zpow_le_zpow_right₀ (by norm_num) canonical.greatest
  constructor
  · have small : (2 : ℚ) * 2 ^ (1074 : Nat) < 10 ^ (324 : Nat) := by exact_mod_cast least_order
    calc (10 : ℚ) ^ (-324 : Int) = 1 / 10 ^ (324 : Nat) := by rw [zpow_neg, one_div, zpow_ofNat]
      _ < 1 / (2 * 2 ^ (1074 : Nat)) := one_div_lt_one_div_of_lt (by positivity) small
      _ = 1 / 2 * 2 ^ (-1074 : Int) := by
        rw [zpow_neg, ← one_div_mul_one_div, one_div (2 ^ _), zpow_ofNat]
      _ ≤ y * 2 ^ q := by
        refine mul_le_mul (by linarith [h.lower]) least (zpow_pos (by norm_num) _).le ?_
        linarith [h.lower]
  · calc y * 2 ^ q < 2 ^ 53 * 2 ^ q := mul_lt_mul_of_pos_right (by linarith [h.upper]) unit
      _ ≤ 2 ^ 53 * 2 ^ (971 : Int) := mul_le_mul_of_nonneg_left greatest (by norm_num)
      _ < 10 ^ (309 : Int) := by exact_mod_cast greatest_order

/-- The count of digits tells the order of magnitude. -/
theorem digits_order {c : Nat} (pos : 0 < c) (e : Int) :
    (10 : ℚ) ^ ((Digit.ofNat c).length + e - 1) ≤ c * 10 ^ e ∧
      (c : ℚ) * 10 ^ e < 10 ^ ((Digit.ofNat c).length + e) := by
  obtain ⟨-, less, most⟩ := Digit.length_ofNat c
  have unit : (0 : ℚ) < 10 ^ e := zpow_pos (by norm_num) e
  have less : (c : ℚ) < 10 ^ ((Digit.ofNat c).length : Int) := by exact_mod_cast less
  have most : (10 : ℚ) ^ ((Digit.ofNat c).length : Int) ≤ 10 * c := by exact_mod_cast most pos
  constructor
  · have shift : (10 : ℚ) ^ ((Digit.ofNat c).length : Int)
        = 10 * 10 ^ (((Digit.ofNat c).length : Int) - 1) := by
      rw [← zpow_one_add₀ (by norm_num)]
      congr 1
      omega
    rw [show ((Digit.ofNat c).length : Int) + e - 1 = (Digit.ofNat c).length - 1 + e by omega,
      zpow_add_ten]
    exact mul_le_mul_of_nonneg_right (by linarith) unit.le
  · rw [zpow_add_ten]
    exact mul_lt_mul_of_pos_right less unit

/-- A number has at least as many bits as digits. -/
theorem length_le_log2 {c : Nat} (pos : 0 < c) : (Digit.ofNat c).length ≤ c.log2 + 1 := by
  obtain ⟨some_digits, -, most⟩ := Digit.length_ofNat c
  have most := most pos
  obtain ⟨k, digits⟩ : ∃ k, (Digit.ofNat c).length = k + 1 := ⟨_, (Nat.succ_pred some_digits.ne').symm⟩
  rw [digits, pow_succ] at most
  have long : 2 ^ k ≤ c := (Nat.pow_le_pow_left (by norm_num) k).trans (by omega : 10 ^ k ≤ c)
  have bits : k ≤ c.log2 := (Nat.le_log2 pos.ne').mpr long
  omega

/-- A decimal in the interval of a double is read as that double. Its order of magnitude is that of
a double, so it is not settled by its count of digits. -/
theorem unpack_nearestDouble {m c : Nat} {q e : Int} (canonical : Canonical m q) (negative : Bool)
    (around : Around m q (c * 10 ^ e / 2 ^ q)) :
    (nearestDouble negative c e).toModel.unpack
      = .finite (if negative then .negative else .positive) m q canonical.pos := by
  have unit : (0 : ℚ) < 2 ^ q := zpow_pos (by norm_num) q
  have value : (c : ℚ) * 10 ^ e / 2 ^ q * 2 ^ q = c * 10 ^ e := div_mul_cancel₀ _ unit.ne'
  obtain ⟨low, high⟩ := around.order canonical
  have nearest := around.nearest canonical .positive
  rw [value] at low high nearest
  have pos : 0 < c := by
    by_contra zero
    obtain rfl : c = 0 := by omega
    rw [Nat.cast_zero, zero_mul] at low
    exact absurd low (not_lt_of_ge (zpow_pos (by norm_num) _).le)
  obtain ⟨from_digits, upto_digits⟩ := digits_order pos e
  have bits := length_le_log2 pos
  have high : ((Digit.ofNat c).length : Int) + e - 1 < 309 :=
    (zpow_lt_zpow_iff_right₀ (by norm_num)).mp (from_digits.trans_lt high)
  have low : -324 < ((Digit.ofNat c).length : Int) + e :=
    (zpow_lt_zpow_iff_right₀ (by norm_num)).mp (low.trans upto_digits)
  have size : (Float.ofScientific c (decide (e < 0)) e.natAbs).toModel.unpack
      = .finite .positive m q canonical.pos := by
    have exponent : (if decide (e < 0) = true then -(e.natAbs : Int) else e.natAbs) = e := by
      by_cases fraction : e < 0
      · rw [if_pos (decide_eq_true fraction)]
        omega
      · rw [if_neg (by simpa using fraction)]
        omega
    have upto (whole : decide (e < 0) = false) : e.natAbs ≤ 2048 := by
      have whole := of_decide_eq_false whole
      omega
    have from_least (fraction : decide (e < 0) = true) : e.natAbs ≤ 2048 + c.log2 := by
      have fraction := of_decide_eq_true fraction
      omega
    rw [unpack_ofScientific pos upto from_least, exponent, nearest,
      unpack_pack_of_canonical canonical]
  unfold nearestDouble
  dsimp only
  rw [if_neg pos.ne', if_neg (show ¬ 310 < ((Digit.ofNat c).length : Int) + e by omega),
    if_neg (show ¬ ((Digit.ofNat c).length : Int) + e < -330 by omega)]
  cases negative with
  | false => exact size
  | true =>
      change (Float.Model.pack (Float.ofScientific c (decide (e < 0)) e.natAbs).toModel.unpack.neg).unpack
        = _
      rw [size]
      exact unpack_pack_of_canonical canonical

/-! ### Written decimals -/

/-- The value of a row of digits around a point is that of the row, scaled. -/
theorem value_positionalParts (row : List Digit) (i : Int) :
    (Digit.value ((positionalParts row i).1 ++ (positionalParts row i).2) : ℚ)
        * 10 ^ (-((positionalParts row i).2.length : Int))
      = Digit.value row * 10 ^ i := by
  have zeros := Digit.value_replicate_zero
  unfold positionalParts
  split
  · rename_i whole
    have power : (10 : ℚ) ^ i.toNat = 10 ^ i := pow_toNat 10 whole
    simp only [List.append_nil, List.length_nil]
    rw [Digit.value_append, zeros, List.length_replicate]
    simp [Nat.pow_eq, power]
  · rename_i fraction
    dsimp only
    split
    · rename_i inside
      rw [List.splitAt_eq]
      dsimp only
      rw [List.take_append_drop, List.length_drop]
      congr 2
      omega
    · rename_i outside
      dsimp only
      rw [Digit.value_append, Digit.value_append, zeros, List.length_append, List.length_replicate]
      have nought : Digit.value [Digit.zero] = 0 := rfl
      have places : -(((-i).toNat - row.length + row.length : Nat) : Int) = i := by omega
      rw [nought, places, Nat.zero_mul, Nat.zero_mul, Nat.zero_add, Nat.zero_add]

theorem positionalParts_ne_nil {row : List Digit} (some_digits : row ≠ []) (i : Int) :
    (positionalParts row i).1 ≠ [] := by
  have positive : 0 < row.length := List.length_pos_iff.mpr some_digits
  unfold positionalParts
  split
  · simp [some_digits]
  · dsimp only
    split
    · rw [List.splitAt_eq, ← List.length_pos_iff, List.length_take]
      omega
    · simp

/-! ### Reading text -/

namespace Numeral

/-- Digits are neither signs nor the point. -/
theorem toChar_ne (d : Digit) : d.toChar ≠ '-' ∧ d.toChar ≠ '+' ∧ d.toChar ≠ '.' := by
  revert d
  decide

/-- A sign is split off digits, if there is one. -/
theorem splitSign_text (negative : Bool) {row : List Digit} (some_digits : row ≠ [])
    (rest : List Char) :
    splitSign ((if negative then ['-'] else []) ++ Digit.text row ++ rest)
      = (negative, Digit.text row ++ rest) := by
  cases negative with
  | true => rfl
  | false =>
      obtain _ | ⟨d, row⟩ := row
      · exact absurd rfl some_digits
      · obtain ⟨minus, plus, -⟩ := toChar_ne d
        change splitSign (d.toChar :: (Digit.text row ++ rest)) = _
        unfold splitSign
        split
        · rename_i h
          exact absurd (List.cons.inj h).1 minus
        · rename_i h
          exact absurd (List.cons.inj h).1 plus
        · rfl

/-- A decimal without exponent is read as it has been written. -/
theorem literal?_text {l : Literal} (some_digits : l.whole ≠ []) (plain : l.exponent = none) :
    literal? l.text = some l := by
  obtain ⟨negative, whole, fraction, exponent⟩ := l
  obtain rfl : exponent = none := plain
  have some_digits : whole ≠ [] := some_digits
  have filled : whole.isEmpty = false := by simpa using some_digits
  unfold literal? Literal.text
  dsimp only
  rw [List.append_nil, splitSign_text negative some_digits]
  dsimp only
  rw [Digit.takeRow_text]
  obtain _ | ⟨d, fraction⟩ := fraction
  · simp [Digit.takeRow, exponentToEnd?, filled]
  · have tail := Digit.takeRow_text (d :: fraction) []
    rw [List.append_nil] at tail
    have point : Digit.takeRow Digit.ofChar? ('.' :: Digit.text (d :: fraction))
        = ([], '.' :: Digit.text (d :: fraction)) := rfl
    simp [point, tail, Digit.takeRow, exponentToEnd?]

end Numeral

/-- The digits of a finite double that is not zero. -/
theorem literal?_everyday {x : Float} {s : UnpackedFloat.Sign} {m : Nat} {q : Int} {pos : 0 < m}
    (form : x.toModel.unpack = .finite s m q pos) :
    Style.everyday.literal? x = some
      { negative := isMinus s
        whole := (positionalParts (Digit.ofNat (shortest .up m q).1) (shortest .up m q).2).1
        fraction := (positionalParts (Digit.ofNat (shortest .up m q).1) (shortest .up m q).2).2
        exponent := none } := by
  have size : magnitude? x = some (m, q) := by
    rw [magnitude?, form]
  have sign : isNegative x = isMinus s := by
    rw [isNegative, form]
  unfold Style.literal?
  rw [size, sign, Option.map_some]
  simp [Style.everyday, Nat.ne_of_gt pos]

/-- What is written of a finite double that is not zero: its sign, and a decimal in its interval. -/
theorem everyday_parts {x : Float} {s : UnpackedFloat.Sign} {m : Nat} {q : Int} {pos : 0 < m}
    (form : x.toModel.unpack = .finite s m q pos) {l : Literal}
    (written : Style.everyday.literal? x = some l) :
    l.whole ≠ [] ∧ l.exponent = none ∧ l.negative = isMinus s ∧
      Around m q (Digit.value (l.whole ++ l.fraction) * 10 ^ (-(l.fraction.length : Int))
        / 2 ^ q) := by
  rw [literal?_everyday form, Option.some.injEq] at written
  subst written
  have some_digits : Digit.ofNat (shortest .up m q).1 ≠ [] :=
    List.length_pos_iff.mp (Digit.length_ofNat _).1
  refine ⟨positionalParts_ne_nil some_digits _, rfl, rfl, ?_⟩
  dsimp only
  rw [value_positionalParts, Digit.value_ofNat]
  exact around_shortest .up q pos

/-- A finite double that is not zero is read as it has been written. -/
theorem nearest_everyday {x : Float} {s : UnpackedFloat.Sign} {m : Nat} {q : Int} {pos : 0 < m}
    (form : x.toModel.unpack = .finite s m q pos) {l : Literal}
    (written : Style.everyday.literal? x = some l) : l.nearest = x := by
  obtain ⟨-, plain, sign, around⟩ := everyday_parts form written
  apply eq_of_unpack_eq
  unfold Literal.nearest
  rw [plain, sign]
  dsimp only
  rw [zero_sub, unpack_nearestDouble (canonical_of_unpack form) _ around, form]
  congr 1
  cases s <;> rfl

/-- Zero is one digit, with its sign. -/
theorem literal?_everyday_zero {x : Float} {s : UnpackedFloat.Sign}
    (form : x.toModel.unpack = .zero s) :
    Style.everyday.literal? x = some
      { negative := isMinus s, whole := [Digit.zero], fraction := [], exponent := none } := by
  have size : magnitude? x = some (0, 0) := by
    rw [magnitude?, form]
  have sign : isNegative x = isMinus s := by
    rw [isNegative, form]
  unfold Style.literal?
  rw [size, sign, Option.map_some]
  rfl

/-- How a double is written, by its form. -/
theorem displayText_cases (x : Float) :
    (∃ l, Style.everyday.literal? x = some l ∧ displayText x = l.text) ∨
      (x.toModel.unpack = .notANumber ∧ displayText x = ['N', 'a', 'N']) ∨
      (x.toModel.unpack = .infinity .negative ∧ displayText x = ['-', 'i', 'n', 'f']) ∨
      (x.toModel.unpack = .infinity .positive ∧ displayText x = ['i', 'n', 'f']) := by
  have number : x.isNaN = x.toModel.unpack.isNaN := rfl
  unfold displayText
  cases written : Style.everyday.literal? x with
  | some l => exact .inl ⟨l, rfl, rfl⟩
  | none =>
      have no_size : magnitude? x = none := Option.map_eq_none_iff.mp written
      refine .inr ?_
      dsimp only
      rw [number, isNegative]
      cases form : x.toModel.unpack with
      | notANumber => exact .inl ⟨rfl, rfl⟩
      | infinity s =>
          cases s with
          | negative => exact .inr (.inl ⟨rfl, rfl⟩)
          | positive => exact .inr (.inr ⟨rfl, rfl⟩)
      | zero s =>
          rw [magnitude?, form] at no_size
          cases no_size
      | finite s m q pos =>
          rw [magnitude?, form] at no_size
          cases no_size

/-- What is written with digits is finite. -/
theorem isFinite_of_literal? {style : Style} {x : Float} {l : Literal}
    (written : style.literal? x = some l) : x.isFinite = true := by
  obtain ⟨size, found, -⟩ := Option.map_eq_some_iff.mp written
  change x.toModel.unpack.isFinite = true
  unfold magnitude? at found
  split at found
  · rename_i zero
    rw [zero]
    rfl
  · rename_i finite
    rw [finite]
    rfl
  · cases found
  · cases found

/-- What is written with digits is read as a decimal, and as the double it was written for. -/
theorem read_everyday {x : Float} {l : Literal} (written : Style.everyday.literal? x = some l) :
    Numeral.literal? l.text = some l ∧ l.nearest = x := by
  cases form : x.toModel.unpack with
  | notANumber => simp [Style.literal?, magnitude?, form] at written
  | infinity s => simp [Style.literal?, magnitude?, form] at written
  | zero s =>
      rw [literal?_everyday_zero form, Option.some.injEq] at written
      subst written
      refine ⟨Numeral.literal?_text nofun rfl, eq_of_unpack_eq ?_⟩
      rw [form]
      cases s <;> rfl
  | finite s m q pos =>
      obtain ⟨some_digits, plain, -, -⟩ := everyday_parts form written
      exact ⟨Numeral.literal?_text some_digits plain, nearest_everyday form written⟩

/-- Every double is read as it has been written. -/
theorem float?_displayText (x : Float) : Numeral.float? (displayText x) = some x := by
  obtain ⟨l, written, text⟩ | ⟨form, text⟩ | ⟨form, text⟩ | ⟨form, text⟩ := displayText_cases x
  · obtain ⟨read, value⟩ := read_everyday written
    rw [text, Numeral.float?, read]
    exact congrArg some value
  · have read : Numeral.float? ['N', 'a', 'N'] = some (0.0 / 0.0) := rfl
    rw [text, read]
    exact congrArg some (eq_of_unpack_eq form.symm)
  · have read : Numeral.float? ['-', 'i', 'n', 'f'] = some (-(1.0 / 0.0)) := rfl
    rw [text, read]
    exact congrArg some (eq_of_unpack_eq form.symm)
  · have read : Numeral.float? ['i', 'n', 'f'] = some (1.0 / 0.0) := rfl
    rw [text, read]
    exact congrArg some (eq_of_unpack_eq form.symm)

/-! ### Blanks -/

theorem isBlank_digits {row : List Digit} : ∀ c ∈ Digit.text row, Text.isBlank c = false := by
  have digit : ∀ d : Digit, Text.isBlank d.toChar = false := by decide
  intro c member
  obtain ⟨d, -, rfl⟩ := List.mem_map.mp member
  exact digit d

/-- There are no blanks in a written decimal. -/
theorem isBlank_text (l : Literal) : ∀ c ∈ l.text, Text.isBlank c = false := by
  intro c member
  unfold Literal.text at member
  rw [List.mem_append, List.mem_append, List.mem_append] at member
  obtain ((sign | whole) | fraction) | exponent := member
  · split at sign
    · obtain rfl := List.mem_singleton.mp sign
      decide
    · cases sign
  · exact isBlank_digits c whole
  · split at fraction
    · cases fraction
    · obtain rfl | digit := List.mem_cons.mp fraction
      · decide
      · exact isBlank_digits c digit
  · split at exponent
    · cases exponent
    · obtain rfl | rest := List.mem_cons.mp exponent
      · decide
      · obtain rfl | digit := List.mem_cons.mp rest
        · split <;> decide
        · exact isBlank_digits c digit

/-- There are no blanks in the words for what is not finite. -/
theorem isBlank_word {word : List Char} (h : word.any Text.isBlank = false) :
    ∀ c ∈ word, Text.isBlank c = false := by
  intro c member
  simpa using List.any_eq_false.mp h c member

/-- There are no blanks in the text of a double. -/
theorem isBlank_displayText (x : Float) : ∀ c ∈ displayText x, Text.isBlank c = false := by
  obtain ⟨l, -, text⟩ | ⟨-, text⟩ | ⟨-, text⟩ | ⟨-, text⟩ := displayText_cases x
  · rw [text]
    exact isBlank_text l
  · rw [text]
    exact isBlank_word rfl
  · rw [text]
    exact isBlank_word rfl
  · rw [text]
    exact isBlank_word rfl

end Decimal
end PriceSignals
