/-
Module: PriceSignals.Proofs.TomlNumbers
Purpose: The spellings of a number in TOML: in decimal or another base, with underscores, a sign, a
  point, an exponent, or one of the words for what is not finite. Each is read as the number, and
  every number has one.
Main exports:
  Number, Number.Spelled, SpelledRow, SpelledWhole, EndsValue, SpelledRow.digitRow_eq,
  Number.Spelled.value_eq, Number.exists_spelled
-/
import PriceSignals.Proofs.JsonNumbers
import PriceSignals.Proofs.Results
import PriceSignals.Toml.Reader

namespace PriceSignals.Toml

open Decimal (Exponent Literal)

/-! ### Spellings -/

/-- A number of TOML: a whole number in a signed word of 64 bits, or a double. -/
inductive Number where
  | integer (n : Int64)
  | float (x : Float)
deriving DecidableEq

/-- The value of a number. -/
def Number.value : Number → Value
  | integer n => .integer n.toInt
  | float x => .float x

/-- A row of digits. Single underscores may stand between them. -/
inductive SpelledRow {α : Type} (digit? : Char → Option α) : List α → List Char → Prop where
  | last {c : Char} {d : α} (digit : digit? c = some d) : SpelledRow digit? [d] [c]
  | next {c : Char} {d : α} {row : List α} {text : List Char} (digit : digit? c = some d)
      (others : SpelledRow digit? row text) : SpelledRow digit? (d :: row) (c :: text)
  | gap {c : Char} {d : α} {row : List α} {text : List Char} (digit : digit? c = some d)
      (others : SpelledRow digit? row text) : SpelledRow digit? (d :: row) (c :: '_' :: text)

/-- The digits in front of a point. A nought in front stands alone. -/
inductive SpelledWhole : List Digit → List Char → Prop where
  | nought : SpelledWhole [Digit.zero] ['0']
  | row {d : Digit} {row : List Digit} {text : List Char} (leading : d ≠ Digit.zero)
      (digits : SpelledRow Digit.ofChar? (d :: row) text) : SpelledWhole (d :: row) text

/-- A sign. The plus sign may be left out. -/
inductive SpelledSign : Bool → List Char → Prop where
  | none : SpelledSign false []
  | plus : SpelledSign false ['+']
  | minus : SpelledSign true ['-']

/-- What stands behind the whole part of a number: a point with digits, or nothing. -/
inductive SpelledFraction : List Digit → List Char → Prop where
  | none : SpelledFraction [] []
  | pointed {row : List Digit} {text : List Char} (digits : SpelledRow Digit.ofChar? row text) :
      SpelledFraction row ('.' :: text)

/-- What stands at the end of a number: an exponent, or nothing. -/
inductive SpelledExponent : Option Exponent → List Char → Prop where
  | none : SpelledExponent .none []
  | power {mark : Char} {negative : Bool} {digits : List Digit} {front text : List Char}
      (letter : mark = 'e' ∨ mark = 'E') (sign : SpelledSign negative front)
      (row : SpelledRow Digit.ofChar? digits text) :
      SpelledExponent (some { negative, digits }) (mark :: (front ++ text))

/-- The bases other than ten, and the letters that mark them. -/
def bases : List (Nat × Char) := [(16, 'x'), (8, 'o'), (2, 'b')]

theorem bases_cases {base : Nat} {letter : Char} (known : (base, letter) ∈ bases) :
    (base = 16 ∧ letter = 'x') ∨ (base = 8 ∧ letter = 'o') ∨ (base = 2 ∧ letter = 'b') := by
  simpa [bases] using known

/-- The spellings of a number. -/
inductive Number.Spelled : Number → List Char → Prop where
  | decimal {n : Int64} {negative : Bool} {row : List Digit} {front text : List Char}
      (sign : SpelledSign negative front) (digits : SpelledWhole row text)
      (value : n.toInt = if negative then -(Digit.value row : Int) else Digit.value row) :
      Spelled (.integer n) (front ++ text)
  | based {n : Int64} {base : Nat} {letter : Char} {row : List Nat} {text : List Char}
      (known : (base, letter) ∈ bases) (digits : SpelledRow (digitBelow? base) row text)
      (value : n.toInt = Nat.ofDigits base row.reverse) :
      Spelled (.integer n) ('0' :: letter :: text)
  | pointed {l : Literal} {front whole fraction exponent : List Char}
      (sign : SpelledSign l.negative front) (whole_part : SpelledWhole l.whole whole)
      (fraction_part : SpelledFraction l.fraction fraction)
      (power : SpelledExponent l.exponent exponent)
      (kind : l.fraction ≠ [] ∨ l.exponent ≠ none) (finite : l.nearest.isFinite = true) :
      Spelled (.float l.nearest) (front ++ (whole ++ (fraction ++ exponent)))
  | infinite {negative : Bool} {front : List Char} (sign : SpelledSign negative front) :
      Spelled (.float (if negative then -(1.0 / 0.0) else 1.0 / 0.0)) (front ++ ['i', 'n', 'f'])
  | notANumber {negative : Bool} {front : List Char} (sign : SpelledSign negative front) :
      Spelled (.float (0.0 / 0.0)) (front ++ ['n', 'a', 'n'])

/-! ### Rows of digits -/

variable {α : Type} {digit? : Char → Option α}

/-- What follows does not go on with a row of digits. -/
def EndsRow (digit? : Char → Option α) (tail : List Char) : Prop :=
  ∀ c, tail.head? = some c → digit? c = none ∧ c ≠ '_'

theorem digitRow_last {c : Char} {d : α} (digit : digit? c = some d) {tail : List Char}
    (ends : EndsRow digit? tail) : digitRow digit? (c :: tail) = some ([d], tail) := by
  cases tail with
  | nil =>
      rw [digitRow, digit]
      rfl
  | cons e tail =>
      obtain ⟨no_digit, no_gap⟩ := ends e rfl
      rw [digitRow.eq_def]
      simp [digit, no_digit]

theorem digitRow_next {c e : Char} {d : α} (digit : digit? c = some d) {rest tail : List Char}
    {row : List α} (apart : digit? '_' = none) (another : (digit? e).isSome = true)
    (others : digitRow digit? (e :: rest) = some (row, tail)) :
    digitRow digit? (c :: e :: rest) = some (d :: row, tail) := by
  have no_gap : e ≠ '_' := by
    rintro rfl
    rw [apart] at another
    cases another
  rw [digitRow.eq_def]
  simp [digit, another, others]

theorem digitRow_gap {c : Char} {d : α} (digit : digit? c = some d) {rest tail : List Char}
    {row : List α} (others : digitRow digit? rest = some (row, tail)) :
    digitRow digit? (c :: '_' :: rest) = some (d :: row, tail) := by
  rw [digitRow, digit]
  exact bind_of_some others _

theorem SpelledRow.exists_head {row : List α} {text : List Char}
    (spelled : SpelledRow digit? row text) :
    ∃ c d more rest, row = d :: more ∧ text = c :: rest ∧ digit? c = some d := by
  cases spelled with
  | @last c d digit => exact ⟨c, d, [], [], rfl, rfl, digit⟩
  | @next c d row text digit _ => exact ⟨c, d, row, text, rfl, rfl, digit⟩
  | @gap c d row text digit _ => exact ⟨c, d, row, '_' :: text, rfl, rfl, digit⟩

/-- A row of digits is read up to its end. -/
theorem SpelledRow.digitRow_eq {row : List α} {text : List Char}
    (spelled : SpelledRow digit? row text) (apart : digit? '_' = none) {tail : List Char}
    (ends : EndsRow digit? tail) : digitRow digit? (text ++ tail) = some (row, tail) := by
  induction spelled with
  | last digit => exact digitRow_last digit ends
  | next digit others ih =>
      obtain ⟨e, d, more, rest, -, rfl, another⟩ := others.exists_head
      exact digitRow_next digit apart (Option.isSome_of_eq_some another) ih
  | gap digit _ ih => exact digitRow_gap digit ih

/-! ### What may follow -/

/-- The characters that may follow a value in a line. -/
inductive IsEnd : Char → Prop where
  | space : IsEnd ' '
  | tab : IsEnd '\t'
  | comment : IsEnd '#'
  | feed : IsEnd '\n'

/-- Behind a value stands nothing, or a character that ends it. -/
def EndsValue (tail : List Char) : Prop := ∀ c, tail.head? = some c → IsEnd c

/-- A character other than a digit ends a row of digits. -/
theorem endsRow_cons {c : Char} (tail : List Char) (no_digit : digit? c = none) (no_gap : c ≠ '_') :
    EndsRow digit? (c :: tail) := by
  rintro _ ⟨⟩
  exact ⟨no_digit, no_gap⟩

theorem EndsValue.endsRow {tail : List Char} (behind : EndsValue tail)
    (apart : ∀ c, IsEnd c → digit? c = none) : EndsRow digit? tail := by
  intro c head
  refine ⟨apart c (behind c head), ?_⟩
  rintro rfl
  cases behind _ head

/-! ### Dates -/

/-- Behind the digits at the front of a text stands neither a dash nor a colon. So it starts with no
date and no time of day. -/
inductive Undated : List Char → Prop where
  | nil : Undated []
  | stop {c : Char} {tail : List Char} (no_digit : Digit.ofChar? c = none) (no_dash : c ≠ '-')
      (no_colon : c ≠ ':') : Undated (c :: tail)
  | digit {c : Char} {d : Digit} {tail : List Char} (digit : Digit.ofChar? c = some d)
      (others : Undated tail) : Undated (c :: tail)

namespace Undated

/-- What stands behind digits in an undated text is undated. -/
theorem drop {cs : List Char} (undated : Undated cs) {count : Nat} {row : List Digit}
    (digits : (cs.take count).mapM Digit.ofChar? = some row) : Undated (cs.drop count) := by
  induction count generalizing cs row with
  | zero => exact undated
  | succ count ih =>
      cases undated with
      | nil => exact .nil
      | stop no_digit =>
          rw [List.take_succ_cons, List.mapM_cons, no_digit] at digits
          cases digits
      | digit digit others =>
          rw [List.take_succ_cons, List.mapM_cons, digit] at digits
          obtain ⟨_, -, digits⟩ := Option.bind_eq_some_iff.mp digits
          obtain ⟨more, digits, -⟩ := Option.bind_eq_some_iff.mp digits
          exact ih others digits

theorem of_fixed {cs tail : List Char} (undated : Undated cs) {count low high n : Nat}
    (read : fixed count low high cs = some (n, tail)) : Undated tail := by
  obtain ⟨row, digits, taken⟩ := Option.bind_eq_some_iff.mp read
  dsimp only at taken
  split at taken
  · obtain ⟨-, rfl⟩ := Prod.mk.inj (Option.some.inj taken)
    exact undated.drop digits
  · cases taken

/-- No dash and no colon follows. -/
theorem after_eq_none {cs : List Char} (undated : Undated cs) {mark : Char}
    (known : mark = '-' ∨ mark = ':') : after mark cs = none := by
  cases undated with
  | nil => rfl
  | stop _ no_dash no_colon =>
      obtain rfl | rfl := known
      · exact if_neg no_dash
      · exact if_neg no_colon
  | @digit c d tail digit _ =>
      refine if_neg ?_
      rintro rfl
      obtain rfl | rfl := known
      · cases digit
      · cases digit

theorem date?_eq_none {cs : List Char} (undated : Undated cs) : date? cs = none := by
  unfold date?
  cases read : fixed 4 0 9999 cs with
  | none => rfl
  | some year =>
      have no_dash := (undated.of_fixed read).after_eq_none (.inl rfl)
      exact congrArg (Option.bind · _) no_dash

theorem clock?_eq_none {cs : List Char} (undated : Undated cs) : clock? cs = none := by
  unfold clock?
  cases read : fixed 2 0 23 cs with
  | none => rfl
  | some hour =>
      have no_colon := (undated.of_fixed read).after_eq_none (.inr rfl)
      exact congrArg (Option.bind · _) no_colon

end Undated

/-- A text that is undated, perhaps behind a sign, starts with no date and no time of day. -/
theorem moment?_eq_none {negative : Bool} {front cs : List Char}
    (sign : SpelledSign negative front) (undated : Undated cs) : moment? (front ++ cs) = none := by
  have no_moment : date? (front ++ cs) = none ∧ clock? (front ++ cs) = none := by
    cases sign with
    | none => exact ⟨undated.date?_eq_none, undated.clock?_eq_none⟩
    | plus => exact ⟨rfl, rfl⟩
    | minus => exact ⟨rfl, rfl⟩
  rw [moment?, no_moment.1]
  exact no_moment.2

theorem EndsValue.undated {tail : List Char} (behind : EndsValue tail) : Undated tail := by
  cases tail with
  | nil => exact .nil
  | cons c tail =>
      cases behind c rfl <;> exact .stop (by decide) (by decide) (by decide)

theorem SpelledRow.undated {row : List Digit} {text tail : List Char}
    (spelled : SpelledRow Digit.ofChar? row text) (behind : Undated tail) :
    Undated (text ++ tail) := by
  induction spelled with
  | last digit => exact .digit digit behind
  | next digit _ ih => exact .digit digit ih
  | gap digit _ ih => exact .digit digit (.stop (by decide) (by decide) (by decide))

theorem SpelledWhole.undated {row : List Digit} {text tail : List Char}
    (spelled : SpelledWhole row text) (behind : Undated tail) : Undated (text ++ tail) := by
  cases spelled with
  | nought => exact .digit rfl behind
  | row _ digits => exact digits.undated behind

/-! ### Whole parts -/

/-- What follows does not go on with the whole part of a decimal number. -/
structure EndsWhole (tail : List Char) : Prop where
  row : EndsRow Digit.ofChar? tail
  decimal : ∀ c, tail.head? = some c → c ∉ bases.map Prod.snd
  undated : Undated tail

theorem EndsValue.endsWhole {tail : List Char} (behind : EndsValue tail) : EndsWhole tail where
  row := behind.endsRow fun c known => by cases known <;> decide
  decimal c head := by cases behind c head <;> decide
  undated := behind.undated

theorem endsWhole_cons {c : Char} (known : c = '.' ∨ c = 'e' ∨ c = 'E') (tail : List Char) :
    EndsWhole (c :: tail) := by
  obtain rfl | rfl | rfl := known
  all_goals
    refine ⟨endsRow_cons tail (by decide) (by decide), ?_, .stop ?_ ?_ ?_⟩
    · rintro _ ⟨⟩
      decide
    all_goals decide

/-- What may stand behind a whole part ends it. -/
theorem SpelledFraction.endsWhole {row : List Digit} {e : Option Exponent}
    {fraction exponent tail : List Char} (fraction_part : SpelledFraction row fraction)
    (power : SpelledExponent e exponent) (behind : EndsValue tail) :
    EndsWhole (fraction ++ exponent ++ tail) := by
  cases fraction_part with
  | pointed _ => exact endsWhole_cons (.inl rfl) _
  | none =>
      cases power with
      | none => exact behind.endsWhole
      | power letter _ _ => exact endsWhole_cons (.inr letter) _

/-- A whole part starts with a digit, which is nought only where it stands alone. -/
theorem SpelledWhole.exists_head {row : List Digit} {text : List Char}
    (spelled : SpelledWhole row text) : ∃ c d rest, text = c :: rest ∧ Digit.ofChar? c = some d ∧
      (c = '0' → row = [Digit.zero] ∧ rest = []) := by
  cases spelled with
  | nought => exact ⟨'0', Digit.zero, [], rfl, rfl, fun _ => ⟨rfl, rfl⟩⟩
  | row leading digits =>
      obtain ⟨c, d, more, rest, same, rfl, digit⟩ := digits.exists_head
      refine ⟨c, d, rest, rfl, digit, ?_⟩
      rintro rfl
      obtain rfl := (List.cons.inj same).1
      exact absurd (Option.some.inj digit).symm leading

/-- The whole part of a number is read up to its end. -/
theorem SpelledWhole.wholeDigits_eq {row : List Digit} {text tail : List Char}
    (spelled : SpelledWhole row text) (ends : EndsRow Digit.ofChar? tail) :
    wholeDigits (text ++ tail) = some (row, tail) := by
  obtain ⟨c, d, rest, start, -, alone⟩ := spelled.exists_head
  by_cases nought : c = '0'
  · obtain ⟨rfl, rfl⟩ := alone nought
    rw [start, nought]
    rfl
  · cases spelled with
    | nought => exact absurd (List.cons.inj start).1.symm nought
    | row leading digits =>
        have read := digits.digitRow_eq (by decide) ends
        rw [start] at read ⊢
        unfold wholeDigits
        split
        · rename_i same
          exact absurd (List.cons.inj same).1 nought
        · exact read

/-- A digit starts none of the words. -/
theorem unsigned_of_digit {c : Char} {d : Digit} (digit : Digit.ofChar? c = some d)
    (negative : Bool) (cs : List Char) :
    unsigned negative (c :: cs)
      = (wholeDigits (c :: cs)).bind fun (whole, rest) => fractional negative whole rest := by
  unfold unsigned
  split
  · rename_i same
    obtain rfl := (List.cons.inj same).1
    cases digit
  · rename_i same
    obtain rfl := (List.cons.inj same).1
    cases digit
  · rfl

theorem sign?_of_digit {c : Char} {d : Digit} (digit : Digit.ofChar? c = some d) (cs : List Char) :
    sign? (c :: cs) = none := by
  unfold sign?
  split
  · rename_i same
    obtain rfl := (List.cons.inj same).1
    cases digit
  · rename_i same
    obtain rfl := (List.cons.inj same).1
    cases digit
  · rfl

/-- A number with a digit in front is decimal, if it is none in another base. -/
theorem number_of_digit {c : Char} {d : Digit} (digit : Digit.ofChar? c = some d) {cs : List Char}
    (decimal : c = '0' → ∀ e, cs.head? = some e → e ∉ bases.map Prod.snd) :
    number (c :: cs) = unsigned false (c :: cs) := by
  have known (e : Char) (inside : e ∈ bases.map Prod.snd) (rest : List Char)
      (same : c :: cs = '0' :: e :: rest) : False := by
    obtain ⟨rfl, rfl⟩ := List.cons.inj same
    exact decimal rfl e rfl inside
  unfold number
  split
  · rename_i rest same
    exact (known 'x' (by decide) rest same).elim
  · rename_i rest same
    exact (known 'o' (by decide) rest same).elim
  · rename_i rest same
    exact (known 'b' (by decide) rest same).elim
  · rw [sign?_of_digit digit]

/-- A sign is taken off a number. -/
theorem SpelledSign.number_eq {negative : Bool} {front : List Char}
    (sign : SpelledSign negative front) {cs : List Char} (plain : number cs = unsigned false cs) :
    number (front ++ cs) = unsigned negative cs := by
  cases sign with
  | none => exact plain
  | plus => rfl
  | minus => rfl

/-- A decimal number is read up to the end of its whole part. -/
theorem SpelledWhole.number_eq {negative : Bool} {row : List Digit} {front text tail : List Char}
    (whole : SpelledWhole row text) (sign : SpelledSign negative front) (ends : EndsWhole tail) :
    number (front ++ (text ++ tail)) = fractional negative row tail := by
  have read := whole.wholeDigits_eq ends.row
  obtain ⟨c, d, rest, rfl, digit, alone⟩ := whole.exists_head
  have decimal : c = '0' → ∀ e, (rest ++ tail).head? = some e → e ∉ bases.map Prod.snd := by
    intro nought
    obtain ⟨-, rfl⟩ := alone nought
    exact ends.decimal
  calc number (front ++ (c :: rest ++ tail))
      = unsigned negative (c :: (rest ++ tail)) := sign.number_eq (number_of_digit digit decimal)
    _ = (wholeDigits (c :: (rest ++ tail))).bind fun (whole, rest) =>
          fractional negative whole rest := unsigned_of_digit digit negative (rest ++ tail)
    _ = fractional negative row tail := bind_of_some read _

/-! ### Fractions and exponents -/

/-- A whole number ends with its whole part. -/
theorem fractional_whole {negative : Bool} {row : List Digit} {v : Value} {tail : List Char}
    (read : integer? (if negative then -(Digit.value row : Int) else Digit.value row) = some v)
    (behind : EndsValue tail) : fractional negative row tail = some (v, tail) := by
  cases tail with
  | nil => exact bind_of_some read _
  | cons c tail => cases behind c rfl <;> exact bind_of_some read _

/-- An exponent is read up to its end. -/
theorem exponent_eq {negative : Bool} {digits : List Digit} {front text tail : List Char}
    (sign : SpelledSign negative front) (row : SpelledRow Digit.ofChar? digits text)
    (behind : EndsValue tail) :
    exponent (front ++ text ++ tail) = some ({ negative, digits }, tail) := by
  have read := row.digitRow_eq (by decide) behind.endsWhole.row
  cases sign with
  | plus => exact bind_of_some read _
  | minus => exact bind_of_some read _
  | none =>
      obtain ⟨c, d, _, rest, -, rfl, digit⟩ := row.exists_head
      unfold exponent
      rw [List.nil_append, List.cons_append, sign?_of_digit digit]
      exact bind_of_some read _

/-- A finite double can be written with a point. -/
theorem float?_of_isFinite {l : Literal} (finite : l.nearest.isFinite = true) :
    float? l = some (.float l.nearest) := by
  have bounded : l.nearest.isInf = false := by
    change l.nearest.toModel.unpack.isFinite = true at finite
    change l.nearest.toModel.unpack.isInf = false
    cases form : l.nearest.toModel.unpack with
    | infinity s =>
        rw [form] at finite
        cases finite
    | _ => rfl
  unfold float?
  simp [bounded]

/-- A number with a point or an exponent is read as the double nearest to it. -/
theorem fractional_literal {l : Literal} {fraction exponent tail : List Char}
    (fraction_part : SpelledFraction l.fraction fraction)
    (power : SpelledExponent l.exponent exponent) (kind : l.fraction ≠ [] ∨ l.exponent ≠ none)
    (finite : l.nearest.isFinite = true) (behind : EndsValue tail) :
    fractional l.negative l.whole (fraction ++ exponent ++ tail)
      = some (.float l.nearest, tail) := by
  have read := float?_of_isFinite finite
  obtain ⟨negative, whole, digits, e⟩ := l
  dsimp only at *
  cases fraction_part with
  | none =>
      cases power with
      | none => simp at kind
      | power letter sign row =>
          have power := exponent_eq sign row behind
          obtain rfl | rfl := letter
          all_goals
            refine (bind_of_some power _).trans ?_
            exact bind_of_some read _
  | pointed digits =>
      cases power with
      | none =>
          have fraction := digits.digitRow_eq (by decide) behind.endsWhole.row
          rw [List.append_nil]
          refine (bind_of_some fraction _).trans ?_
          cases tail with
          | nil => exact bind_of_some read _
          | cons c tail => cases behind c rfl <;> exact bind_of_some read _
      | @power _ _ _ front text letter sign row =>
          have power := exponent_eq sign row behind
          have ends := (endsWhole_cons (.inr letter) (front ++ text ++ tail)).row
          have fraction := digits.digitRow_eq (by decide) ends
          rw [List.append_assoc]
          refine (bind_of_some fraction _).trans ?_
          obtain rfl | rfl := letter
          all_goals
            refine (bind_of_some power _).trans ?_
            exact bind_of_some read _

/-! ### Numbers -/

/-- A whole number of a signed word is in range. -/
theorem integer?_toInt (n : Int64) : integer? n.toInt = some (.integer n.toInt) := by
  apply if_pos
  exact ⟨n.minValue_le_toInt, n.toInt_le⟩

/-- A row of digits in another base stands for their sum, each times the power for its place. -/
theorem based_eq {n : Int64} {base : Nat} {row : List Nat} {text tail : List Char}
    (digits : SpelledRow (digitBelow? base) row text)
    (value : n.toInt = Nat.ofDigits base row.reverse) (behind : EndsValue tail) :
    based base (text ++ tail) = some (.integer n.toInt, tail) := by
  have no_digit (c : Char) (absent : Text.hexDigit? c = none) : digitBelow? base c = none := by
    rw [digitBelow?, absent, Option.filter_none]
  have ends : EndsRow (digitBelow? base) tail :=
    behind.endsRow fun c known => no_digit c (by cases known <;> decide)
  have read := digits.digitRow_eq (no_digit '_' (by decide)) ends
  have sum : (row.foldl (fun n d => n * base + d) 0 : Nat) = Nat.ofDigits base row.reverse := by
    rw [Nat.ofDigits_eq_foldr, List.foldr_reverse]
    simp [Nat.add_comm, Nat.mul_comm]
  have whole :
      integer? (row.foldl (fun n d => n * base + d) 0 : Nat) = some (.integer n.toInt) := by
    rw [sum, ← value, integer?_toInt]
  exact (bind_of_some read _).trans (bind_of_some whole _)

namespace Number.Spelled

variable {v : Number} {text tail : List Char}

/-- Each spelling of a number is read as the number. -/
theorem number_eq (spelled : v.Spelled text) (behind : EndsValue tail) :
    number (text ++ tail) = some (v.value, tail) := by
  cases spelled with
  | @decimal n negative row front text sign digits value =>
      rw [List.append_assoc, digits.number_eq sign behind.endsWhole]
      exact fractional_whole (value ▸ integer?_toInt n) behind
  | based known digits value =>
      have read := based_eq digits value behind
      obtain ⟨rfl, rfl⟩ | ⟨rfl, rfl⟩ | ⟨rfl, rfl⟩ := bases_cases known
      · exact read
      · exact read
      · exact read
  | pointed sign whole_part fraction_part power kind finite =>
      have ends := fraction_part.endsWhole power behind
      rw [List.append_assoc, List.append_assoc, whole_part.number_eq sign ends]
      exact fractional_literal fraction_part power kind finite behind
  | infinite sign =>
      rw [List.append_assoc, sign.number_eq rfl]
      rfl
  | notANumber sign =>
      rw [List.append_assoc, sign.number_eq rfl]
      rfl

/-- No spelling of a number starts a date or a time of day. -/
theorem moment?_eq_none (spelled : v.Spelled text) (behind : EndsValue tail) :
    moment? (text ++ tail) = none := by
  cases spelled with
  | decimal sign digits _ =>
      rw [List.append_assoc]
      exact Toml.moment?_eq_none sign (digits.undated behind.undated)
  | based known _ _ =>
      apply Toml.moment?_eq_none .none
      refine .digit rfl ?_
      obtain ⟨-, rfl⟩ | ⟨-, rfl⟩ | ⟨-, rfl⟩ := bases_cases known
      · exact .stop (by decide) (by decide) (by decide)
      · exact .stop (by decide) (by decide) (by decide)
      · exact .stop (by decide) (by decide) (by decide)
  | pointed sign whole_part fraction_part power _ _ =>
      rw [List.append_assoc, List.append_assoc]
      exact Toml.moment?_eq_none sign
        (whole_part.undated (fraction_part.endsWhole power behind).undated)
  | infinite sign =>
      rw [List.append_assoc]
      exact Toml.moment?_eq_none sign (.stop (by decide) (by decide) (by decide))
  | notANumber sign =>
      rw [List.append_assoc]
      exact Toml.moment?_eq_none sign (.stop (by decide) (by decide) (by decide))

end Number.Spelled

/-! ### Values -/

/-- The characters that a number may start with. -/
inductive IsStart : Char → Prop where
  | plus : IsStart '+'
  | minus : IsStart '-'
  | digit {c : Char} {d : Digit} (digit : Digit.ofChar? c = some d) : IsStart c
  | infinite : IsStart 'i'
  | notANumber : IsStart 'n'

/-- A number starts with no other character. -/
theorem IsStart.ne {c e : Char} (start : IsStart c) (no_digit : Digit.ofChar? e = none)
    (apart : e ∉ ['+', '-', 'i', 'n']) : c ≠ e := by
  rintro rfl
  cases start with
  | digit digit =>
      rw [digit] at no_digit
      cases no_digit
  | _ => exact apart (by decide)

theorem SpelledSign.exists_start {negative : Bool} {front cs : List Char}
    (sign : SpelledSign negative front) (start : ∃ c rest, cs = c :: rest ∧ IsStart c) :
    ∃ c rest, front ++ cs = c :: rest ∧ IsStart c := by
  cases sign with
  | none => exact start
  | plus => exact ⟨'+', cs, rfl, .plus⟩
  | minus => exact ⟨'-', cs, rfl, .minus⟩

theorem SpelledWhole.exists_start {row : List Digit} {text : List Char}
    (spelled : SpelledWhole row text) (tail : List Char) :
    ∃ c rest, text ++ tail = c :: rest ∧ IsStart c := by
  obtain ⟨c, d, rest, rfl, digit, -⟩ := spelled.exists_head
  exact ⟨c, rest ++ tail, rfl, .digit digit⟩

namespace Number.Spelled

variable {v : Number} {text tail : List Char}

theorem exists_start (spelled : v.Spelled text) : ∃ c rest, text = c :: rest ∧ IsStart c := by
  cases spelled with
  | decimal sign digits _ =>
      have start := digits.exists_start []
      rw [List.append_nil] at start
      exact sign.exists_start start
  | based _ _ _ => exact ⟨'0', _, rfl, .digit rfl⟩
  | pointed sign whole_part _ _ _ _ => exact sign.exists_start (whole_part.exists_start _)
  | infinite sign => exact sign.exists_start ⟨'i', _, rfl, .infinite⟩
  | notANumber sign => exact sign.exists_start ⟨'n', _, rfl, .notANumber⟩

/-- Each spelling of a number is read as a value. -/
theorem value_eq (spelled : v.Spelled text) (behind : EndsValue tail) (fuel room : Nat) :
    Toml.value (fuel + 1) room (text ++ tail) = some (v.value, tail) := by
  have read : scalar (text ++ tail) = some (v.value, tail) := by
    have no_moment := spelled.moment?_eq_none behind
    have number := spelled.number_eq behind
    obtain ⟨c, rest, rfl, start⟩ := spelled.exists_start
    unfold scalar
    split
    · rename_i same
      exact absurd (List.cons.inj same).1 (start.ne (by decide) (by decide))
    · rename_i same
      exact absurd (List.cons.inj same).1 (start.ne (by decide) (by decide))
    · rw [no_moment]
      exact number
  obtain ⟨c, rest, rfl, start⟩ := spelled.exists_start
  have quote : c ≠ '"' := start.ne (by decide) (by decide)
  have quote' : c ≠ '\'' := start.ne (by decide) (by decide)
  have bracket : c ≠ '[' := start.ne (by decide) (by decide)
  have brace : c ≠ '\x7b' := start.ne (by decide) (by decide)
  rw [← read]
  unfold Toml.value
  simp [quote, quote', bracket, brace]

end Number.Spelled

/-! ### Every number can be spelled -/

theorem spelledRow_text {d : Digit} {row : List Digit} :
    SpelledRow Digit.ofChar? (d :: row) (Digit.text (d :: row)) := by
  induction row generalizing d with
  | nil => exact .last (Digit.ofChar?_toChar d)
  | cons e row ih => exact .next (Digit.ofChar?_toChar d) ih

theorem spelledWhole_text {whole : List Digit} (leading : Decimal.IsLeading whole) :
    SpelledWhole whole (Digit.text whole) := by
  cases whole with
  | nil => exact absurd rfl leading.filled
  | cons d row =>
      by_cases nought : d = Digit.zero
      · subst nought
        obtain rfl := leading.nought row rfl
        exact .nought
      · exact .row nought spelledRow_text

theorem spelledFraction_text (row : List Digit) :
    SpelledFraction row (if row.isEmpty then [] else '.' :: Digit.text row) := by
  cases row with
  | nil => exact .none
  | cons d row => exact .pointed spelledRow_text

/-- An exponent of nought does not change a number. -/
theorem nearest_nought {l : Literal} (plain : l.exponent = none) :
    Literal.nearest { l with exponent := some { negative := false, digits := [Digit.zero] } }
      = l.nearest := by
  unfold Literal.nearest
  rw [plain]
  rfl

/-- A whole number can be spelled in decimal. -/
theorem exists_spelled_integer (n : Int64) : ∃ text, (Number.integer n).Spelled text := by
  have digits (k : Nat) := spelledWhole_text (Decimal.isLeading_ofNat k)
  cases size : n.toInt with
  | ofNat k =>
      refine ⟨_, .decimal .none (digits k) ?_⟩
      rw [size, Digit.value_ofNat]
      rfl
  | negSucc k =>
      refine ⟨_, .decimal .minus (digits (k + 1)) ?_⟩
      rw [size, Digit.value_ofNat]
      rfl

/-- A finite double can be spelled with an exponent. -/
theorem exists_spelled_literal {x : Float} {l : Literal}
    (written : Decimal.Style.everyday.literal? x = some l) :
    ∃ text, (Number.float x).Spelled text := by
  have leading := (Decimal.isJson_of_literal? written).leading
  obtain ⟨-, same⟩ := Decimal.read_everyday written
  have plain : l.exponent = none := by
    obtain ⟨⟨m, q⟩, -, rfl⟩ := Option.map_eq_some_iff.mp written
    dsimp only
    split
    · rfl
    · rfl
  obtain ⟨front, sign⟩ : ∃ front, SpelledSign l.negative front := by
    cases l.negative with
    | false => exact ⟨[], .none⟩
    | true => exact ⟨['-'], .minus⟩
  let powered : Literal := { l with exponent := some { negative := false, digits := [Digit.zero] } }
  obtain rfl : powered.nearest = x := (nearest_nought plain).trans same
  exact ⟨_, @Number.Spelled.pointed powered _ _ _ _ sign (spelledWhole_text leading)
    (spelledFraction_text l.fraction) (.power (.inl rfl) .none spelledRow_text) (.inr nofun)
    (Decimal.isFinite_of_literal? written)⟩

/-- Every number has a spelling. -/
theorem Number.exists_spelled (v : Number) : ∃ text, v.Spelled text := by
  cases v with
  | integer n => exact exists_spelled_integer n
  | float x =>
      obtain ⟨l, written, -⟩ | ⟨form, -⟩ | ⟨form, -⟩ | ⟨form, -⟩ := Decimal.displayText_cases x
      · exact exists_spelled_literal written
      · obtain rfl : 0.0 / 0.0 = x := Binary64.eq_of_unpack_eq form.symm
        exact ⟨_, .notANumber .none⟩
      · obtain rfl : -(1.0 / 0.0) = x := Binary64.eq_of_unpack_eq form.symm
        exact ⟨_, .infinite .minus⟩
      · obtain rfl : 1.0 / 0.0 = x := Binary64.eq_of_unpack_eq form.symm
        exact ⟨_, .infinite .none⟩

end PriceSignals.Toml
