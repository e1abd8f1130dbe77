/-
Module: PriceSignals.Proofs.TomlDocuments
Purpose: The layouts of a TOML document whose tables have headers and hold numbers: blanks,
  comments, empty lines, line ends of both kinds, quoted keys, a byte order mark. Whatever the
  layout, the document is read as its tables.
Main exports:
  Statement, SpelledKey, Trail, Line, Lines, File, Builder.apply, Builder.applyAll,
  Line.statements_eq, Lines.statements_eq, File.document_eq, File.exists, Block,
  File.document_blocks
-/
import PriceSignals.Proofs.TableLayouts
import PriceSignals.Proofs.TomlNumbers

namespace PriceSignals.Toml

open Csv (IsLineEnd)

/-! ### Layouts -/

/-- What a line says: the header of a table, or the number of a key. -/
inductive Statement where
  | header (name : Key)
  | entry (name : Key) (v : Number)

/-- The name in a statement. -/
def Statement.name : Statement → Key
  | header name => name
  | entry name _ => name

/-- The blanks within a line. -/
def IsBlanks (cs : List Char) : Prop := ∀ c ∈ cs, isBlank c = true

/-- The texts of a key: as it is, or in quotes of either kind. -/
inductive SpelledKey (name : Key) : List Char → Prop where
  | bare (filled : name ≠ []) (plain : ∀ c ∈ name, inKey c = true) : SpelledKey name name
  | literal (plain : ∀ c ∈ name, inText c = true ∧ c ≠ '\'') :
      SpelledKey name ('\'' :: name ++ ['\''])
  | basic (plain : ∀ c ∈ name, inText c = true ∧ c ≠ '"' ∧ c ≠ '\\') :
      SpelledKey name ('"' :: name ++ ['"'])

/-- What may stand at the end of any line: blanks, and a comment. -/
inductive Trail : List Char → Prop where
  | plain {blanks : List Char} (blank : IsBlanks blanks) : Trail blanks
  | comment {blanks text : List Char} (blank : IsBlanks blanks)
      (plain : ∀ c ∈ text, inText c = true) : Trail (blanks ++ '#' :: text)

/-- The texts of a line. A line may say nothing. -/
inductive Line : Option Statement → List Char → Prop where
  | empty {trail : List Char} (rest : Trail trail) : Line none trail
  | header {name : Key} {front before text behind trail : List Char} (indent : IsBlanks front)
      (left : IsBlanks before) (key : SpelledKey name text) (right : IsBlanks behind)
      (rest : Trail trail) :
      Line (some (.header name))
        (front ++ '[' :: (before ++ (text ++ (behind ++ ']' :: trail))))
  | entry {name : Key} {v : Number} {front text behind before number trail : List Char}
      (indent : IsBlanks front) (key : SpelledKey name text) (right : IsBlanks behind)
      (left : IsBlanks before) (value : v.Spelled number) (rest : Trail trail) :
      Line (some (.entry name v))
        (front ++ (text ++ (behind ++ '=' :: (before ++ (number ++ trail)))))

/-- The texts of lines that say some statements in their order. The last line need not be ended. -/
inductive Lines : List Statement → List Char → Prop where
  | last {said : Option Statement} {text : List Char} (line : Line said text) :
      Lines said.toList text
  | next {said : Option Statement} {text ending more : List Char} {others : List Statement}
      (line : Line said text) (ends : IsLineEnd ending) (rest : Lines others more) :
      Lines (said.toList ++ others) (text ++ (ending ++ more))

/-- The texts of a document. A byte order mark may stand in front. -/
inductive File (said : List Statement) : List Char → Prop where
  | marked {text : List Char} (lines : Lines said text) : File said ('\ufeff' :: text)
  | unmarked {text : List Char} (lines : Lines said text) : File said text

/-! ### Blanks -/

theorem isBlank_cases {c : Char} (blank : isBlank c = true) : c = ' ' ∨ c = '\t' := by
  simpa [isBlank] using blank

/-- Characters of a kind are left behind up to the first other one. -/
theorem dropWhile_eq {p : Char → Bool} {front rest : List Char} (inside : ∀ c ∈ front, p c = true)
    (stop : ∀ c, rest.head? = some c → p c = false) : (front ++ rest).dropWhile p = rest := by
  rw [List.dropWhile_append_of_pos inside]
  cases rest with
  | nil => rfl
  | cons c rest => exact List.dropWhile_cons_of_neg (by simp [stop c rfl])

/-- Characters of a kind are taken up to the first other one. -/
theorem takeWhile_eq {p : Char → Bool} {front rest : List Char} (inside : ∀ c ∈ front, p c = true)
    (stop : ∀ c, rest.head? = some c → p c = false) : (front ++ rest).takeWhile p = front := by
  rw [List.takeWhile_append_of_pos inside]
  cases rest with
  | nil => exact List.append_nil front
  | cons c rest =>
      rw [List.takeWhile_cons_of_neg (by simp [stop c rfl]), List.append_nil]

/-- A character of keys is no blank. -/
theorem isBlank_of_inKey {c : Char} (inside : inKey c = true) : isBlank c = false := by
  apply Bool.eq_false_iff.mpr
  intro blank
  obtain rfl | rfl := isBlank_cases blank
  · exact absurd inside (by decide)
  · exact absurd inside (by decide)

/-- No number starts with a blank. -/
theorem IsStart.isBlank {c : Char} (start : IsStart c) : isBlank c = false := by
  apply Bool.eq_false_iff.mpr
  intro blank
  obtain same | same := isBlank_cases blank
  · exact start.ne (by decide) (by decide) same
  · exact start.ne (by decide) (by decide) same

theorem skipBlanks_cons {front : List Char} (blank : IsBlanks front) {c : Char}
    (stop : isBlank c = false) (rest : List Char) :
    skipBlanks (front ++ c :: rest) = c :: rest := by
  apply dropWhile_eq blank
  rintro _ ⟨⟩
  exact stop

/-! ### Keys -/

theorem literalText_eq {name : Key} (plain : ∀ c ∈ name, inText c = true ∧ c ≠ '\'')
    (tail : List Char) : literalText (name ++ '\'' :: tail) = some (name, tail) := by
  induction name with
  | nil => rfl
  | cons c name ih =>
      obtain ⟨text, no_quote⟩ := plain c List.mem_cons_self
      have others := ih fun e member => plain e (List.mem_cons_of_mem c member)
      rw [List.cons_append, literalText, if_neg no_quote, if_pos text, others]
      rfl

theorem basicText_eq {name : Key} (plain : ∀ c ∈ name, inText c = true ∧ c ≠ '"' ∧ c ≠ '\\')
    (tail : List Char) : basicText (name ++ '"' :: tail) = some (name, tail) := by
  induction name with
  | nil =>
      rw [List.nil_append, basicText]
      rfl
  | cons c name ih =>
      obtain ⟨text, no_quote, no_escape⟩ := plain c List.mem_cons_self
      have others := ih fun e member => plain e (List.mem_cons_of_mem c member)
      rw [List.cons_append, basicText, if_neg no_quote, if_neg no_escape, if_pos text, others]
      rfl

/-- A key without quotes is read up to its end. -/
theorem key_bare {name tail : List Char} (filled : name ≠ []) (plain : ∀ c ∈ name, inKey c = true)
    (ends : ∀ c, tail.head? = some c → inKey c = false) :
    key (name ++ tail) = some (name, tail) := by
  have front := takeWhile_eq plain ends
  have rest := dropWhile_eq plain ends
  obtain ⟨c, more, rfl⟩ := List.exists_cons_of_ne_nil filled
  have inside := plain c List.mem_cons_self
  unfold key
  split
  · rename_i same
    obtain rfl := (List.cons.inj same).1
    exact absurd inside (by decide)
  · rename_i same
    obtain rfl := (List.cons.inj same).1
    exact absurd inside (by decide)
  · rw [front, rest]

/-- The characters that a key may start with. -/
inductive IsKeyStart : Char → Prop where
  | literal : IsKeyStart '\''
  | basic : IsKeyStart '"'
  | plain {c : Char} (inside : inKey c = true) : IsKeyStart c

/-- A key starts with no other character. -/
theorem IsKeyStart.ne {c e : Char} (start : IsKeyStart c) (apart : e ≠ '\'' ∧ e ≠ '"')
    (outside : inKey e = false) : c ≠ e := by
  rintro rfl
  cases start with
  | literal => exact apart.1 rfl
  | basic => exact apart.2 rfl
  | plain inside =>
      rw [inside] at outside
      cases outside

theorem IsKeyStart.isBlank {c : Char} (start : IsKeyStart c) : isBlank c = false := by
  cases start with
  | literal => decide
  | basic => decide
  | plain inside => exact isBlank_of_inKey inside

namespace SpelledKey

variable {name : Key} {text : List Char}

/-- A key is read up to its end. -/
theorem key_eq (spelled : SpelledKey name text) {tail : List Char}
    (ends : ∀ c, tail.head? = some c → inKey c = false) :
    key (text ++ tail) = some (name, tail) := by
  cases spelled with
  | bare filled plain => exact key_bare filled plain ends
  | literal plain =>
      rw [List.append_assoc]
      exact literalText_eq plain tail
  | basic plain =>
      rw [List.append_assoc]
      exact basicText_eq plain tail

/-- A key starts with a quote or with a character of keys. -/
theorem exists_start (spelled : SpelledKey name text) :
    ∃ c rest, text = c :: rest ∧ IsKeyStart c := by
  cases spelled with
  | bare filled plain =>
      obtain ⟨c, rest, rfl⟩ := List.exists_cons_of_ne_nil filled
      exact ⟨c, rest, rfl, .plain (plain c List.mem_cons_self)⟩
  | literal _ => exact ⟨'\'', _, rfl, .literal⟩
  | basic _ => exact ⟨'"', _, rfl, .basic⟩

/-- A key of one part is read up to the mark behind it. -/
theorem keyPath_eq (spelled : SpelledKey name text) {front behind : List Char}
    (left : IsBlanks front) (right : IsBlanks behind) {mark : Char}
    (known : mark = ']' ∨ mark = '=') (rest : List Char) :
    keyPath maxParts (front ++ (text ++ (behind ++ mark :: rest)))
      = some (([], name), mark :: rest) := by
  have start : skipBlanks (front ++ (text ++ (behind ++ mark :: rest)))
      = text ++ (behind ++ mark :: rest) := by
    obtain ⟨c, more, rfl, start⟩ := spelled.exists_start
    exact skipBlanks_cons left start.isBlank _
  have stop : skipBlanks (behind ++ mark :: rest) = mark :: rest := by
    apply skipBlanks_cons right
    obtain rfl | rfl := known <;> decide
  have ends : ∀ c, (behind ++ mark :: rest).head? = some c → inKey c = false := by
    cases behind with
    | nil =>
        rintro _ ⟨⟩
        obtain rfl | rfl := known <;> decide
    | cons c behind =>
        rintro _ ⟨⟩
        obtain rfl | rfl := isBlank_cases (right c List.mem_cons_self) <;> decide
  unfold maxParts keyPath
  rw [start]
  refine (bind_of_some (spelled.key_eq ends) _).trans ?_
  dsimp only
  rw [stop]
  obtain rfl | rfl := known <;> rfl

end SpelledKey

/-! ### Lines -/

/-- Behind a line, the document ends or the next line starts. -/
inductive EndsLine : List Char → List Char → Prop where
  | done : EndsLine [] []
  | feed {rest : List Char} : EndsLine ('\n' :: rest) rest

/-- Nothing but blanks and a comment is left of a line. -/
theorem Trail.lineEnd_eq {trail tail rest : List Char} (trailing : Trail trail)
    (ends : EndsLine tail rest) : lineEnd (trail ++ tail) = some rest := by
  cases trailing with
  | plain blank =>
      have skipped : skipBlanks (trail ++ tail) = tail := by
        cases ends with
        | done => exact dropWhile_eq blank nofun
        | feed => exact skipBlanks_cons blank (by decide) rest
      unfold lineEnd
      rw [skipped]
      cases ends <;> rfl
  | @comment blanks text blank plain =>
      have skipped : skipBlanks (blanks ++ '#' :: text ++ tail) = '#' :: (text ++ tail) := by
        rw [List.append_assoc]
        exact skipBlanks_cons blank (by decide) (text ++ tail)
      have dropped : (text ++ tail).dropWhile inText = tail := by
        apply dropWhile_eq plain
        cases ends with
        | done => nofun
        | feed =>
            rintro _ ⟨⟩
            decide
      unfold lineEnd
      simp only [skipped, dropped]
      cases ends <;> rfl

/-- What may stand behind a number ends it. -/
theorem Trail.endsValue {trail tail rest : List Char} (trailing : Trail trail)
    (ends : EndsLine tail rest) : EndsValue (trail ++ tail) := by
  have behind_blanks {blanks more : List Char} (blank : IsBlanks blanks) (others : EndsValue more) :
      EndsValue (blanks ++ more) := by
    cases blanks with
    | nil => exact others
    | cons c blanks =>
        rintro _ ⟨⟩
        obtain rfl | rfl := isBlank_cases (blank c List.mem_cons_self)
        · exact .space
        · exact .tab
  cases trailing with
  | plain blank =>
      apply behind_blanks blank
      cases ends with
      | done => nofun
      | feed =>
          rintro _ ⟨⟩
          exact .feed
  | @comment blanks text blank plain =>
      rw [List.append_assoc]
      apply behind_blanks blank
      rintro _ ⟨⟩
      exact .comment

/-- What a statement makes of the document so far. -/
def Builder.apply (b : Builder) : Statement → Option Builder
  | .header name =>
    (openTable [] name .header b.entries).map fun entries => { entries, current := [name] }
  | .entry name v =>
    (within .header (assign [] name v.value) b.current .header b.entries).map fun entries =>
      { b with entries }

variable {b : Builder} {fuel : Nat} {name : Key} {text front behind trail tail rest : List Char}

/-- A line that starts with a single bracket is a header. -/
theorem statements_bracket {cs inside : List Char} (start : skipBlanks cs = '[' :: inside)
    (single : ∀ c, inside.head? = some c → c ≠ '[') :
    statements (fuel + 1) b cs = (keyPath maxParts inside).bind fun ((path, key), rest) =>
      (after ']' rest).bind fun rest => (lineEnd rest).bind fun rest =>
        (openTable path key .header b.entries).bind fun entries =>
          statements fuel { entries, current := path ++ [key] } rest := by
  rw [statements, start]
  split
  · rename_i same
    cases same
  · rename_i same
    exact absurd (List.cons.inj same).1 (by decide)
  · rename_i same
    exact absurd (List.cons.inj same).1 (by decide)
  · rename_i same
    obtain ⟨-, rfl⟩ := List.cons.inj same
    exact absurd rfl (single '[' rfl)
  · rename_i same
    obtain ⟨-, rfl⟩ := List.cons.inj same
    rfl
  · rename_i other
    exact absurd rfl (other inside)

/-- A header is read as one. -/
theorem statements_header {before : List Char} (indent : IsBlanks front) (left : IsBlanks before)
    (key : SpelledKey name text) (right : IsBlanks behind) (trailing : Trail trail)
    (ends : EndsLine tail rest) :
    statements (fuel + 1) b
        (front ++ '[' :: (before ++ (text ++ (behind ++ ']' :: (trail ++ tail)))))
      = (b.apply (.header name)).bind fun b => statements fuel b rest := by
  have single : ∀ c, (before ++ (text ++ (behind ++ ']' :: (trail ++ tail)))).head? = some c →
      c ≠ '[' := by
    cases before with
    | nil =>
        obtain ⟨c, more, rfl, start⟩ := key.exists_start
        rintro _ ⟨⟩
        exact start.ne (by decide) (by decide)
    | cons c before =>
        rintro _ ⟨⟩
        obtain rfl | rfl := isBlank_cases (left c List.mem_cons_self) <;> decide
  have start := skipBlanks_cons indent (by decide : isBlank '[' = false)
    (before ++ (text ++ (behind ++ ']' :: (trail ++ tail))))
  rw [statements_bracket start single, key.keyPath_eq left right (.inl rfl) (trail ++ tail),
    Option.bind_some]
  refine (bind_of_some (trailing.lineEnd_eq ends) _).trans ?_
  dsimp only [Builder.apply]
  cases openTable [] name .header b.entries with
  | none => rfl
  | some entries => rfl

/-- A line that starts with neither a bracket nor a comment gives a key its value. -/
theorem statements_key {cs start : List Char} {c : Char} (first : skipBlanks cs = c :: start)
    (no_feed : c ≠ '\n') (no_comment : c ≠ '#') (no_bracket : c ≠ '[') :
    statements (fuel + 1) b cs = (keyPath maxParts (c :: start)).bind fun ((path, key), rest) =>
      (after '=' rest).bind fun rest =>
        (value (2 * rest.length + 2) maxDepth (skipBlanks rest)).bind fun (v, rest) =>
          (lineEnd rest).bind fun rest =>
            (within .header (assign path key v) b.current .header b.entries).bind fun entries =>
              statements fuel { b with entries } rest := by
  rw [statements, first]
  split
  · rename_i same
    cases same
  · rename_i same
    exact absurd (List.cons.inj same).1 no_feed
  · rename_i same
    exact absurd (List.cons.inj same).1 no_comment
  · rename_i same
    exact absurd (List.cons.inj same).1 no_bracket
  · rename_i same
    exact absurd (List.cons.inj same).1 no_bracket
  · rfl

/-- The number of a key is read as one. -/
theorem statements_entry {v : Number} {before number : List Char} (indent : IsBlanks front)
    (key : SpelledKey name text) (right : IsBlanks behind) (left : IsBlanks before)
    (spelled : v.Spelled number) (trailing : Trail trail) (ends : EndsLine tail rest) :
    statements (fuel + 1) b
        (front ++ (text ++ (behind ++ '=' :: (before ++ (number ++ (trail ++ tail))))))
      = (b.apply (.entry name v)).bind fun b => statements fuel b rest := by
  have path := key.keyPath_eq (nofun : IsBlanks []) right (.inr rfl)
    (before ++ (number ++ (trail ++ tail)))
  have read (fuel : Nat) :
      value (fuel + 1) maxDepth (skipBlanks (before ++ (number ++ (trail ++ tail))))
        = some (v.value, trail ++ tail) := by
    have read := spelled.value_eq (trailing.endsValue ends) fuel maxDepth
    obtain ⟨c, more, rfl, start⟩ := spelled.exists_start
    rw [List.cons_append, skipBlanks_cons left start.isBlank]
    exact read
  obtain ⟨c, more, rfl, start⟩ := key.exists_start
  have first := skipBlanks_cons indent start.isBlank
    (more ++ (behind ++ '=' :: (before ++ (number ++ (trail ++ tail)))))
  rw [List.cons_append, statements_key first (start.ne (by decide) (by decide))
    (start.ne (by decide) (by decide)) (start.ne (by decide) (by decide))]
  refine (bind_of_some path _).trans ?_
  refine (bind_of_some (read _) _).trans ?_
  refine (bind_of_some (trailing.lineEnd_eq ends) _).trans ?_
  dsimp only [Builder.apply]
  cases within .header (assign [] name v.value) b.current .header b.entries with
  | none => rfl
  | some entries => rfl

/-- What the statements of a line make of the document so far. -/
def Builder.applyAll (b : Builder) (said : List Statement) : Option Builder :=
  said.foldlM apply b

/-- A line that says nothing is left out. -/
theorem statements_empty (trailing : Trail trail) (ends : EndsLine tail rest) :
    statements (fuel + 2) b (trail ++ tail) = statements (fuel + 1) b rest := by
  cases trailing with
  | plain blank =>
      cases ends with
      | done =>
          have skipped : skipBlanks (trail ++ []) = [] := dropWhile_eq blank nofun
          rw [statements, skipped, statements]
          rfl
      | feed =>
          rw [statements, skipBlanks_cons blank (by decide)]
          rfl
  | @comment blanks text blank plain =>
      have comment : Trail ('#' :: text) := .comment (nofun : IsBlanks []) plain
      rw [statements, List.append_assoc, List.cons_append, skipBlanks_cons blank (by decide)]
      exact bind_of_some (comment.lineEnd_eq ends) _

/-- A line is read as what it says. -/
theorem Line.statements_eq {said : Option Statement} (line : Line said text)
    (ends : EndsLine tail rest) :
    statements (fuel + 2) b (text ++ tail)
      = (b.applyAll said.toList).bind fun b => statements (fuel + 1) b rest := by
  have single (s : Statement) : b.applyAll [s] = b.apply s := by
    simp [Builder.applyAll]
  cases line with
  | empty trailing => exact statements_empty trailing ends
  | header indent left key right trailing =>
      simp only [List.append_assoc, List.cons_append]
      rw [statements_header indent left key right trailing ends, Option.toList_some, single]
  | entry indent key right left value trailing =>
      simp only [List.append_assoc, List.cons_append]
      rw [statements_entry indent key right left value trailing ends, Option.toList_some, single]

/-! ### Line ends -/

/-- A text without carriage returns stays as it is. -/
theorem unifyLineEnds_append {text : List Char} (plain : '\r' ∉ text) (rest : List Char) :
    unifyLineEnds (text ++ rest) = text ++ unifyLineEnds rest := by
  induction text with
  | nil => rfl
  | cons c text ih =>
      have others := ih (List.not_mem_of_not_mem_cons plain)
      simp [unifyLineEnds, others, (List.ne_of_not_mem_cons plain).symm]

theorem unifyLineEnds_ending {ending : List Char} (ends : IsLineEnd ending) (rest : List Char) :
    unifyLineEnds (ending ++ rest) = '\n' :: unifyLineEnds rest := by
  cases ends with
  | feed => simp [unifyLineEnds]
  | returnFeed => rfl

theorem not_mem_of_all {p : Char → Bool} {cs : List Char} (inside : ∀ c ∈ cs, p c = true)
    {e : Char} (outside : p e = false) : e ∉ cs := by
  intro member
  rw [inside e member] at outside
  cases outside

theorem IsBlanks.no_return {cs : List Char} (blank : IsBlanks cs) : '\r' ∉ cs :=
  not_mem_of_all blank (by decide)

theorem Trail.no_return {trail : List Char} (trailing : Trail trail) : '\r' ∉ trail := by
  cases trailing with
  | plain blank => exact blank.no_return
  | comment blank plain =>
      have text := not_mem_of_all plain (by decide : inText '\r' = false)
      simp [blank.no_return, text]

theorem SpelledKey.no_return {name : Key} {text : List Char} (spelled : SpelledKey name text) :
    '\r' ∉ text := by
  have outside : inText '\r' = false := by decide
  cases spelled with
  | bare _ plain => exact not_mem_of_all plain (by decide)
  | literal plain =>
      have inside := not_mem_of_all (fun c member => (plain c member).1) outside
      simp [inside]
  | basic plain =>
      have inside := not_mem_of_all (fun c member => (plain c member).1) outside
      simp [inside]

theorem SpelledRow.no_return {α : Type} {digit? : Char → Option α} (apart : digit? '\r' = none)
    {row : List α} {text : List Char} (spelled : SpelledRow digit? row text) : '\r' ∉ text := by
  have digit_ne {c : Char} {d : α} (digit : digit? c = some d) : '\r' ≠ c := by
    rintro rfl
    rw [apart] at digit
    cases digit
  induction spelled with
  | last digit => simp [digit_ne digit]
  | next digit _ ih => simp [digit_ne digit, ih]
  | gap digit _ ih => simp [digit_ne digit, ih]

theorem SpelledSign.no_return {negative : Bool} {front : List Char}
    (sign : SpelledSign negative front) : '\r' ∉ front := by
  cases sign <;> decide

theorem SpelledWhole.no_return {row : List Digit} {text : List Char}
    (spelled : SpelledWhole row text) : '\r' ∉ text := by
  cases spelled with
  | nought => decide
  | row _ digits => exact digits.no_return (by decide)

theorem SpelledFraction.no_return {row : List Digit} {text : List Char}
    (spelled : SpelledFraction row text) : '\r' ∉ text := by
  cases spelled with
  | none => exact List.not_mem_nil
  | pointed digits => simp [digits.no_return (by decide)]

theorem SpelledExponent.no_return {e : Option Decimal.Exponent} {text : List Char}
    (spelled : SpelledExponent e text) : '\r' ∉ text := by
  cases spelled with
  | none => exact List.not_mem_nil
  | power letter sign row =>
      obtain rfl | rfl := letter
      all_goals simp [sign.no_return, row.no_return (by decide)]

theorem Number.Spelled.no_return {v : Number} {text : List Char} (spelled : v.Spelled text) :
    '\r' ∉ text := by
  cases spelled with
  | decimal sign digits _ => simp [sign.no_return, digits.no_return]
  | @based _ base _ _ _ known digits _ =>
      have apart : digitBelow? base '\r' = none := by
        rw [digitBelow?, (by decide : Text.hexDigit? '\r' = none), Option.filter_none]
      obtain ⟨-, rfl⟩ | ⟨-, rfl⟩ | ⟨-, rfl⟩ := bases_cases known
      all_goals simp [digits.no_return apart]
  | pointed sign whole_part fraction_part power _ _ =>
      simp [sign.no_return, whole_part.no_return, fraction_part.no_return, power.no_return]
  | infinite sign => simp [sign.no_return]
  | notANumber sign => simp [sign.no_return]

/-- No line has a carriage return. -/
theorem Line.no_return {said : Option Statement} {text : List Char} (line : Line said text) :
    '\r' ∉ text := by
  cases line with
  | empty trailing => exact trailing.no_return
  | header indent left key right trailing =>
      simp [indent.no_return, left.no_return, key.no_return, right.no_return, trailing.no_return]
  | entry indent key right left value trailing =>
      simp [indent.no_return, key.no_return, right.no_return, left.no_return, value.no_return,
        trailing.no_return]

/-! ### Documents -/

/-- A line without text says nothing. -/
theorem Line.said_eq_none {said : Option Statement} {text : List Char} (line : Line said text)
    (empty : text = []) : said = none := by
  cases line with
  | empty _ => rfl
  | header => simp at empty
  | entry => simp at empty

/-- Lines are read as what they say. -/
theorem Lines.statements_eq {said : List Statement} {text : List Char} (lines : Lines said text)
    {fuel : Nat} (enough : (unifyLineEnds text).length < fuel) (b : Builder) :
    statements fuel b (unifyLineEnds text) = b.applyAll said := by
  induction lines generalizing fuel b with
  | @last said text line =>
      have plain : unifyLineEnds text = text := by
        have same := unifyLineEnds_append line.no_return []
        rwa [List.append_nil, unifyLineEnds, List.append_nil] at same
      rw [plain] at enough ⊢
      match fuel, enough with
      | 1, enough =>
          obtain rfl : text = [] := List.length_eq_zero_iff.mp (Nat.lt_one_iff.mp enough)
          obtain rfl := line.said_eq_none rfl
          rfl
      | fuel + 2, _ =>
          have read : statements (fuel + 2) b (text ++ []) = _ := line.statements_eq .done
          rw [List.append_nil] at read
          rw [read]
          cases b.applyAll said.toList with
          | none => rfl
          | some after => rfl
  | @next said text ending more others line ends _ ih =>
      have plain :
          unifyLineEnds (text ++ (ending ++ more)) = text ++ '\n' :: unifyLineEnds more := by
        rw [unifyLineEnds_append line.no_return, unifyLineEnds_ending ends]
      rw [plain] at enough ⊢
      rw [List.length_append, List.length_cons] at enough
      obtain ⟨fuel, rfl⟩ : ∃ k, fuel = k + 2 := ⟨fuel - 2, by omega⟩
      rw [line.statements_eq .feed, Builder.applyAll, Builder.applyAll, List.foldlM_append]
      cases said.toList.foldlM Builder.apply b with
      | none => rfl
      | some after => exact ih (by omega) after

/-- No line starts with a byte order mark. -/
theorem Line.no_mark {said : Option Statement} {text tail : List Char} (line : Line said text)
    (no_mark : tail.head? ≠ some '\ufeff') : (text ++ tail).head? ≠ some '\ufeff' := by
  have behind_blanks {front rest : List Char} (blank : IsBlanks front)
      (no_mark : rest.head? ≠ some '\ufeff') : (front ++ rest).head? ≠ some '\ufeff' := by
    cases front with
    | nil => exact no_mark
    | cons c front =>
        rintro ⟨⟩
        exact absurd (blank _ List.mem_cons_self) (by decide)
  cases line with
  | empty trailing =>
      cases trailing with
      | plain blank => exact behind_blanks blank no_mark
      | comment blank _ =>
          rw [List.append_assoc]
          exact behind_blanks blank (by simp)
  | header indent _ _ _ _ =>
      rw [List.append_assoc]
      exact behind_blanks indent (by simp)
  | entry indent key _ _ _ _ =>
      rw [List.append_assoc]
      apply behind_blanks indent
      obtain ⟨c, more, rfl, start⟩ := key.exists_start
      rintro ⟨⟩
      exact start.ne (by decide) (by decide) rfl

theorem Lines.no_mark {said : List Statement} {text : List Char} (lines : Lines said text) :
    text.head? ≠ some '\ufeff' := by
  cases lines with
  | last line =>
      have none_behind := line.no_mark (nofun : ([] : List Char).head? ≠ some '\ufeff')
      rwa [List.append_nil] at none_behind
  | next line ends _ =>
      apply line.no_mark
      cases ends <;> simp

/-- A document is read as what its lines say. -/
theorem File.document_eq {said : List Statement} {text : List Char} (file : File said text) :
    document text
      = (({} : Builder).applyAll said).map fun b => .table .header b.entries := by
  have read {text : List Char} (lines : Lines said text) :=
    congrArg (Option.map fun b => Value.table .header b.entries)
      (lines.statements_eq (Nat.lt_succ_self _) {})
  cases file with
  | marked lines => exact read lines
  | unmarked lines =>
      unfold document
      split
      · exact absurd rfl lines.no_mark
      · exact read lines

/-- Statements about names that need no quotes can be written as a document. -/
theorem File.exists {said : List Statement}
    (plain : ∀ s ∈ said, s.name ≠ [] ∧ ∀ c ∈ s.name, inKey c = true) : ∃ text, File said text := by
  suffices lines : ∃ text, Lines said text by
    obtain ⟨text, lines⟩ := lines
    exact ⟨text, .unmarked lines⟩
  have blank : IsBlanks [] := nofun
  induction said with
  | nil => exact ⟨[], .last (.empty (.plain blank))⟩
  | cons s said ih =>
      obtain ⟨filled, key⟩ := plain s List.mem_cons_self
      obtain ⟨more, others⟩ := ih fun other member => plain other (List.mem_cons_of_mem s member)
      have line : ∃ text, Line (some s) text := by
        cases s with
        | header name => exact ⟨_, .header blank blank (.bare filled key) blank (.plain blank)⟩
        | entry name v =>
            obtain ⟨number, spelled⟩ := v.exists_spelled
            exact ⟨_, .entry blank (.bare filled key) blank blank spelled (.plain blank)⟩
      obtain ⟨text, line⟩ := line
      exact ⟨_, .next line .feed others⟩

/-! ### Tables -/

/-- A table with its header: the name of the table, and the numbers of its keys. -/
structure Block where
  name : Key
  entries : List (Key × Number)

namespace Block

/-- The statements of a table. -/
def said (s : Block) : List Statement :=
  .header s.name :: s.entries.map fun (key, v) => .entry key v

/-- The entries of a table. -/
def inner (s : Block) : Entries := s.entries.map fun (key, v) => (key, v.value)

/-- The entry of a table in its document. -/
def outer (s : Block) : Key × Value := (s.name, .table .header s.inner)

end Block

theorem lookup_eq_none {entries : Entries} {key : Key} (fresh : key ∉ entries.map Prod.fst) :
    entries.lookup key = none := by
  apply List.lookup_eq_none_iff.mpr
  intro p member
  have apart : key ≠ p.1 := fun same => fresh (same ▸ List.mem_map_of_mem member)
  simpa using apart

namespace Builder

/-- A new header opens an empty table. -/
theorem apply_header {name : Key} (fresh : name ∉ b.entries.map Prod.fst) :
    b.apply (.header name)
      = some { entries := b.entries ++ [(name, .table .header [])], current := [name] } := by
  have absent := lookup_eq_none fresh
  simp [apply, openTable, within, absent]

/-- A new key goes into the table that has been opened last. -/
theorem apply_entry {before inner : Entries} {name key : Key} {v : Number}
    (apart : name ∉ before.map Prod.fst) (fresh : key ∉ inner.map Prod.fst) :
    apply { entries := before ++ [(name, .table .header inner)], current := [name] } (.entry key v)
      = some { entries := before ++ [(name, .table .header (inner ++ [(key, v.value)]))]
               current := [name] } := by
  have absent := lookup_eq_none fresh
  have apart_of (e : Key × Value) (member : e ∈ before) : e.1 ≠ name :=
    fun same => apart (same ▸ List.mem_map_of_mem member)
  have found : (before ++ [(name, .table .header inner)] : Entries).lookup name
      = some (.table .header inner) := by
    rw [List.lookup_append, lookup_eq_none apart, List.lookup_cons_self]
    rfl
  have put (v : Value) : (before ++ [(name, .table .header inner)] : Entries).put name v
      = before ++ [(name, v)] := by
    have kept : before.put name v = before :=
      (List.map_congr_left fun e member => if_neg (apart_of e member)).trans (List.map_id' before)
    unfold Entries.put at kept ⊢
    rw [List.map_append, kept]
    simp
  simp [apply, assign, within, found, absent, put, Route.enters]

/-- The keys of a table are put into it one after the other. -/
theorem applyAll_entries {before inner : Entries} {name : Key} {entries : List (Key × Number)}
    (apart : name ∉ before.map Prod.fst)
    (once : (inner.map Prod.fst ++ entries.map Prod.fst).Nodup) :
    applyAll { entries := before ++ [(name, .table .header inner)], current := [name] }
        (entries.map fun (key, v) => .entry key v)
      = some { entries := before
                 ++ [(name, .table .header (inner ++ entries.map fun (key, v) => (key, v.value)))]
               current := [name] } := by
  induction entries generalizing inner with
  | nil => simp [applyAll]
  | cons e entries ih =>
      obtain ⟨key, v⟩ := e
      have fresh : key ∉ inner.map Prod.fst := by
        intro met
        exact (List.nodup_append.mp once).2.2 key met key List.mem_cons_self rfl
      have read := @ih (inner ++ [(key, v.value)]) (by simpa using once)
      rw [List.map_cons, applyAll, List.foldlM_cons, apply_entry apart fresh]
      refine read.trans ?_
      simp

/-- Tables with different names are read one after the other. -/
theorem exists_applyAll {blocks : List Block} (b : Builder)
    (tables : (b.entries.map Prod.fst ++ blocks.map Block.name).Nodup)
    (keys : ∀ s ∈ blocks, (s.entries.map Prod.fst).Nodup) :
    ∃ after, b.applyAll (blocks.flatMap Block.said) = some after ∧
      after.entries = b.entries ++ blocks.map Block.outer := by
  induction blocks generalizing b with
  | nil => exact ⟨b, rfl, (List.append_nil b.entries).symm⟩
  | cons s blocks ih =>
      have fresh : s.name ∉ b.entries.map Prod.fst := by
        intro met
        exact (List.nodup_append.mp tables).2.2 s.name met s.name List.mem_cons_self rfl
      have filled := @applyAll_entries b.entries [] s.name s.entries fresh
        (by simpa using keys s List.mem_cons_self)
      obtain ⟨after, read, entries⟩ :=
        ih { entries := b.entries ++ [s.outer], current := [s.name] }
          (by simpa [Block.outer] using tables)
          fun other member => keys other (List.mem_cons_of_mem s member)
      refine ⟨after, ?_, by rw [entries]; simp⟩
      rw [applyAll, List.flatMap_cons, List.foldlM_append, Block.said, List.foldlM_cons,
        apply_header fresh]
      refine (bind_of_some filled _).trans ?_
      exact read

end Builder

/-- A document of tables with different names, whose keys are different in each, is read as those
tables. -/
theorem File.document_blocks {blocks : List Block} (tables : (blocks.map Block.name).Nodup)
    (keys : ∀ s ∈ blocks, (s.entries.map Prod.fst).Nodup) {text : List Char}
    (file : File (blocks.flatMap Block.said) text) :
    document text = some (.table .header (blocks.map Block.outer)) := by
  obtain ⟨after, read, entries⟩ := Builder.exists_applyAll {} tables keys
  rw [file.document_eq, read, Option.map_some, entries]
  rfl

end PriceSignals.Toml
