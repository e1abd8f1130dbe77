/-
Module: PriceSignals.Proofs.TimeReadBack
Purpose: The cell of a time is read as the same instant, although it may become a time of another
  kind: a double without fraction is written like a whole number and read as one.
Main exports:
  Text.trim_trim, Text.trim_surrounded, Decimal.Numeral.integer?_text,
  Decimal.Numeral.integer?_decimalText, BarTime.ofSeconds?_of_integer?, BarTime.IsPlain,
  BarTime.instant?_ofText_cell
-/
import PriceSignals.Annotation.Csv
import PriceSignals.Bar.Csv
import PriceSignals.Proofs.DecimalReadBack
import PriceSignals.Proofs.FractionalTime

namespace PriceSignals

/-! ### Trimmed texts -/

namespace Text

theorem trimEnd_eq (cs : List Char) : trimEnd cs = cs.rdropWhile isBlank := rfl

theorem trimStart_of_head {cs : List Char} (h : ∀ c, cs.head? = some c → isBlank c = false) :
    trimStart cs = cs := by
  obtain _ | ⟨c, cs⟩ := cs
  · rfl
  · rw [trimStart, List.dropWhile_cons_of_neg (by simp [h c rfl])]

/-- A trimmed text does not start with a blank. -/
theorem head_trim {cs : List Char} {c : Char} (h : (trim cs).head? = some c) :
    isBlank c = false := by
  have front : trim cs <+: trimStart cs := List.rdropWhile_prefix _ _
  have head : (trimStart cs).head? = some c := by
    obtain ⟨rest, whole⟩ := front
    rw [← whole, List.head?_append, h]
    rfl
  have kept := List.head?_dropWhile_not isBlank cs
  rw [show cs.dropWhile isBlank = trimStart cs from rfl, head] at kept
  simpa using kept

/-- Trimming twice is trimming once. -/
theorem trim_trim (cs : List Char) : trim (trim cs) = trim cs := by
  rw [trim, trimStart_of_head fun c => head_trim]
  exact List.rdropWhile_idempotent isBlank (trimStart cs)

/-- A text without blanks is trimmed. -/
theorem trim_of_not_blank {cs : List Char} (h : ∀ c ∈ cs, isBlank c = false) : trim cs = cs := by
  rw [trim, trimStart_of_head fun c head => h c (List.mem_of_head? head), trimEnd_eq,
    List.rdropWhile_eq_self_iff]
  intro some_chars
  simp [h _ (List.getLast_mem some_chars)]

/-- Blanks around a text do not count. -/
theorem trim_surrounded {front back : List Char} (cs : List Char)
    (before : ∀ c ∈ front, isBlank c = true) (behind : ∀ c ∈ back, isBlank c = true) :
    trim (front ++ (cs ++ back)) = trim cs := by
  have start : trimStart (front ++ (cs ++ back)) = trimStart (cs ++ back) :=
    List.dropWhile_append_of_pos before
  have rest : trimStart (cs ++ back)
      = if (trimStart cs).isEmpty then trimStart back else trimStart cs ++ back :=
    List.dropWhile_append
  rw [trim, start, rest, trim]
  split
  · rename_i empty
    rw [List.isEmpty_iff.mp empty]
    exact congrArg trimEnd (List.dropWhile_eq_nil_iff.mpr behind)
  · unfold trimEnd
    rw [List.reverse_append, List.dropWhile_append_of_pos fun c member =>
      behind c (List.mem_reverse.mp member)]

end Text

/-! ### Whole numbers -/

namespace Decimal.Numeral

/-- The number that digits with a sign stand for. -/
def signed (negative : Bool) (row : List Digit) : Int :=
  if negative then -(Digit.value row : Int) else Digit.value row

/-- Digits with a sign are read as a whole number if it fits the word. -/
theorem integer?_text (negative : Bool) {row : List Digit} (some_digits : row ≠ []) :
    integer? ((if negative then ['-'] else []) ++ Digit.text row)
      = if Int64.minValue.toInt ≤ signed negative row ∧ signed negative row ≤ Int64.maxValue.toInt
        then some (Int64.ofInt (signed negative row)) else none := by
  have split := splitSign_text negative some_digits []
  have digits := Digit.takeRow_text row []
  rw [List.append_nil, List.append_nil] at split
  rw [List.append_nil] at digits
  have ends : Digit.takeRow Digit.ofChar? [] = ([], []) := rfl
  rw [ends, List.append_nil] at digits
  unfold integer?
  rw [split]
  dsimp only
  rw [digits]
  obtain _ | ⟨d, row⟩ := row
  · exact absurd rfl some_digits
  · rfl

/-- There are no blanks in a written whole number. -/
theorem isBlank_decimalText (n : Int) : ∀ c ∈ decimalText n, Text.isBlank c = false := by
  intro c member
  cases n with
  | ofNat m => exact isBlank_digits c member
  | negSucc m =>
      obtain rfl | digit := List.mem_cons.mp member
      · decide
      · exact isBlank_digits c digit

/-- The text of a whole number is read as that number. -/
theorem integer?_decimalText (n : Int64) : integer? (decimalText n.toInt) = some n := by
  have written (negative : Bool) (m : Nat) (value : signed negative (Digit.ofNat m) = n.toInt) :
      integer? ((if negative then ['-'] else []) ++ Digit.text (Digit.ofNat m)) = some n := by
    rw [integer?_text negative (List.length_pos_iff.mp (Digit.length_ofNat m).1), value,
      if_pos ⟨n.minValue_le_toInt, n.toInt_le⟩, Int64.ofInt_toInt]
  unfold decimalText
  cases size : n.toInt with
  | ofNat m =>
      refine written false m ?_
      rw [signed, Digit.value_ofNat, size]
      rfl
  | negSucc m =>
      refine written true (m + 1) ?_
      rw [signed, Digit.value_ofNat, size]
      rfl

/-- A decimal that is read as a whole number has been written without a fraction. -/
theorem of_integer?_text {l : Literal} {n : Int64} (some_digits : l.whole ≠ [])
    (plain : l.exponent = none) (read : integer? l.text = some n) :
    l.fraction = [] ∧ n.toInt = signed l.negative l.whole := by
  obtain ⟨negative, whole, fraction, exponent⟩ := l
  obtain rfl : exponent = none := plain
  obtain _ | ⟨d, fraction⟩ := fraction
  · refine ⟨rfl, ?_⟩
    have text : Literal.text { negative, whole, fraction := [], exponent := none }
        = (if negative then ['-'] else []) ++ Digit.text whole := by
      simp [Literal.text]
    rw [text, integer?_text negative some_digits, Option.ite_none_right_eq_some] at read
    obtain ⟨⟨low, high⟩, found⟩ := read
    obtain rfl := Option.some.inj found
    exact Int64.toInt_ofInt_of_le low (Int.lt_add_one_of_le high)
  · have text : Literal.text { negative, whole, fraction := d :: fraction, exponent := none }
        = (if negative then ['-'] else []) ++ Digit.text whole
          ++ '.' :: Digit.text (d :: fraction) := by
      simp [Literal.text]
    have point : Digit.takeRow Digit.ofChar? ('.' :: Digit.text (d :: fraction))
        = ([], '.' :: Digit.text (d :: fraction)) := rfl
    rw [text, integer?, splitSign_text negative some_digits] at read
    dsimp only at read
    rw [Digit.takeRow_text, point] at read
    obtain _ | ⟨e, whole⟩ := whole <;> cases read

end Decimal.Numeral

/-! ### Doubles without fraction -/

namespace Decimal

open Binary64 Float.Model

/-- A double whose text has no fraction is a whole number: the one in its text, if that is small
enough to be a double. -/
theorem Around.whole {m k : Nat} {q : Int} (around : Around m q (k / 2 ^ q))
    (canonical : Canonical m q) :
    ∃ w : Nat, (m : ℚ) * 2 ^ q = w ∧ (w = k ∨ 2 ^ 53 ≤ w ∧ 2 ^ 53 ≤ k) := by
  have unit : (0 : ℚ) < 2 ^ q := zpow_pos (by norm_num) q
  by_cases short : k < 2 ^ 53
  · have pos : 0 < k := by
      have positive := around.pos canonical.pos
      rw [div_pos_iff_of_pos_right unit] at positive
      exact_mod_cast positive
    obtain ⟨m', q', canonical', value⟩ := exists_canonical_eq_natCast pos short
    have nearest := around.nearest canonical .positive
    rw [div_mul_cancel₀ _ unit.ne', ← value, nearest_self canonical'] at nearest
    obtain ⟨-, rfl, rfl⟩ := UnpackedFloat.finite.inj nearest
    exact ⟨k, value, .inl rfl⟩
  · have long : 2 ^ 53 ≤ k := Nat.le_of_not_lt short
    have most : (m : ℚ) + 1 ≤ 2 ^ 53 := by exact_mod_cast canonical.lt
    have large : (2 : ℚ) ^ (0 : Int) < 2 ^ q := by
      have upper := around.upper
      rw [div_le_iff₀ unit] at upper
      have long : (2 : ℚ) ^ 53 ≤ k := by exact_mod_cast long
      by_contra small
      nlinarith
    have large : 0 < q := (zpow_lt_zpow_iff_right₀ (by norm_num)).mp large
    have full : 2 ^ 52 ≤ m := canonical.full.resolve_right (by omega)
    refine ⟨m * 2 ^ q.toNat, ?_, .inr ⟨?_, long⟩⟩
    · rw [← pow_toNat 2 large.le]
      push_cast
      rfl
    · have two : 2 ^ 1 ≤ 2 ^ q.toNat := Nat.pow_le_pow_right (by norm_num) (by omega)
      calc 2 ^ 53 = 2 ^ 52 * 2 ^ 1 := rfl
        _ ≤ m * 2 ^ q.toNat := Nat.mul_le_mul full two

end Decimal

/-! ### Times -/

namespace BarTime

open Binary64 Decimal Float.Model

/-- A double without fraction has the instant of the whole number in its text. Beyond 53 bits the
two may be different numbers, but neither has an instant then. -/
theorem ofSeconds?_of_around {x : Float} {s : UnpackedFloat.Sign} {m k : Nat} {q : Int} {pos : 0 < m}
    (form : x.toModel.unpack = .finite s m q pos) (around : Around m q (k / 2 ^ q)) :
    ofSeconds? x = Time.Instant.ofUnix? (if isMinus s then -(k : Int) else k) 0 := by
  obtain ⟨w, size, same⟩ := around.whole (canonical_of_unpack form)
  have value : value? x = some ((s.apply w : Int) : ℚ) := by
    rw [value?, form]
    cases s <;> simp [UnpackedFloat.Sign.apply, size]
  rw [ofSeconds?_whole value, apply_eq]
  obtain rfl | ⟨far, long⟩ := same
  · rfl
  · have outside {n : Nat} (long : 2 ^ 53 ≤ n) :
        s.apply n < Time.Instant.minSecs ∨ Time.Instant.maxSecs < s.apply n := by
      rw [Time.Instant.minSecs, Time.Instant.maxSecs]
      cases s <;> simp only [UnpackedFloat.Sign.apply] <;> omega
    rw [Time.Instant.ofUnix?_of_outside (outside far),
      Time.Instant.ofUnix?_of_outside (outside long)]

/-- Both zeros have the instant of zero. -/
theorem ofSeconds?_of_zero {x : Float} {s : UnpackedFloat.Sign}
    (form : x.toModel.unpack = .zero s) : ofSeconds? x = Time.Instant.ofUnix? 0 0 := by
  apply ofSeconds?_whole
  rw [(HasValue.zero s form).value?_eq, Int.cast_zero]

/-- Where the text of a double is read as a whole number, the instant is that of the double. -/
theorem ofSeconds?_of_integer? {x : Float} {n : Int64}
    (read : Numeral.integer? (displayText x) = some n) :
    ofSeconds? x = Time.Instant.ofUnix? n.toInt 0 := by
  obtain ⟨l, written, text⟩ | ⟨-, text⟩ | ⟨-, text⟩ | ⟨-, text⟩ := displayText_cases x
  · rw [text] at read
    cases form : x.toModel.unpack with
    | notANumber => simp [Style.literal?, magnitude?, form] at written
    | infinity s => simp [Style.literal?, magnitude?, form] at written
    | zero s =>
        rw [literal?_everyday_zero form, Option.some.injEq] at written
        subst written
        obtain ⟨-, value⟩ := Numeral.of_integer?_text (List.cons_ne_nil _ _) rfl read
        have zero : n.toInt = 0 := by
          rw [value]
          cases s <;> rfl
        rw [zero, ofSeconds?_of_zero form]
    | finite s m q pos =>
        obtain ⟨some_digits, plain, sign, around⟩ := everyday_parts form written
        obtain ⟨no_fraction, value⟩ := Numeral.of_integer?_text some_digits plain read
        rw [no_fraction, List.append_nil, List.length_nil, Nat.cast_zero, neg_zero, zpow_zero,
          mul_one] at around
        rw [value, Numeral.signed, sign]
        exact ofSeconds?_of_around form around
  · rw [text] at read
    cases read
  · rw [text] at read
    cases read
  · rw [text] at read
    cases read

/-- Neither a double that is not finite nor its text has an instant. -/
theorem instant?_of_infinite {x : Float} (infinite : x.isFinite = false) :
    Time.instant? (displayText x) = none ∧ ofSeconds? x = none := by
  have no_seconds := ofSeconds?_of_not_finite (value?_eq_none_iff.mpr infinite)
  change x.toModel.unpack.isFinite = false at infinite
  obtain ⟨l, written, -⟩ | ⟨form, text⟩ | ⟨form, text⟩ | ⟨form, text⟩ := displayText_cases x
  · cases form : x.toModel.unpack with
    | notANumber => simp [Style.literal?, magnitude?, form] at written
    | infinity s => simp [Style.literal?, magnitude?, form] at written
    | zero s => simp [form, UnpackedFloat.isFinite] at infinite
    | finite s m q pos => simp [form, UnpackedFloat.isFinite] at infinite
  · exact ⟨by rw [text]; decide +kernel, no_seconds⟩
  · exact ⟨by rw [text]; decide +kernel, no_seconds⟩
  · exact ⟨by rw [text]; decide +kernel, no_seconds⟩

/-- A text whose instant survives a table: without the blanks around it, it is no number of
seconds. -/
def IsPlain : BarTime → Prop
  | text chars =>
    Numeral.integer? (Text.trim chars.toList) = none ∧
      ∀ x, Numeral.float? (Text.trim chars.toList) = some x → x.isFinite = false
  | _ => True

/-- What is read from a table is no text that stands for a number of seconds. -/
theorem isPlain_ofText (cs : List Char) : (ofText (Text.trim cs)).IsPlain := by
  unfold ofText
  cases whole : Numeral.integer? (Text.trim cs) with
  | some n => trivial
  | none =>
      cases number : Numeral.float? (Text.trim cs) with
      | none =>
          dsimp only [IsPlain]
          rw [String.toList_ofList, Text.trim_trim, number]
          exact ⟨whole, nofun⟩
      | some x =>
          dsimp only
          split
          · trivial
          · rename_i infinite
            dsimp only [IsPlain]
            rw [String.toList_ofList, Text.trim_trim, number]
            refine ⟨whole, fun y same => ?_⟩
            obtain rfl := Option.some.inj same
            simpa using infinite

/-- The cell of a time has its instant. -/
theorem instant?_ofText_cell {t : BarTime} (plain : t.IsPlain) :
    (ofText (Text.trim t.cell)).instant? = t.instant? := by
  cases t with
  | unix secs =>
      rw [cell, Text.trim_of_not_blank (Numeral.isBlank_decimalText secs.toInt), ofText,
        Numeral.integer?_decimalText]
  | fractional secs =>
      rw [cell, Text.trim_of_not_blank (isBlank_displayText secs), ofText]
      cases whole : Numeral.integer? (displayText secs) with
      | some n => exact (ofSeconds?_of_integer? whole).symm
      | none =>
          rw [float?_displayText]
          dsimp only
          split
          · rfl
          · rename_i infinite
            obtain ⟨none_written, none_given⟩ := instant?_of_infinite (by simpa using infinite)
            rw [instant?, instant?, String.toList_ofList, none_written, none_given]
  | text chars =>
      obtain ⟨whole, infinite⟩ := plain
      have kept : ofText (Text.trim chars.toList) = text (String.ofList (Text.trim chars.toList)) := by
        rw [ofText, whole]
        cases number : Numeral.float? (Text.trim chars.toList) with
        | none => rfl
        | some x => simp [infinite x number]
      rw [cell, kept, instant?, instant?, String.toList_ofList, Time.instant?, Time.instant?,
        Text.trim_trim]

end BarTime
end PriceSignals
