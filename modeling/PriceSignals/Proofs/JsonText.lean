/-
Module: PriceSignals.Proofs.JsonText
Purpose: A JSON text is read as the value that it spells, whatever blanks stand between its parts.
Main exports:
  Decimal.IsLeading, Literal.IsJson, Reader.number_size, Reader.quoted_print, IsGap, Tree.Spelled,
  Items.Spelled, Members.Spelled, Reader.Reads, Reader.reads_value, Reader.document_spelled
-/
import PriceSignals.Json.Reader
import PriceSignals.Json.Printer

namespace PriceSignals

/-! ### Numbers -/

/-- Digits in front of a point: there are some, and a nought in front of them stands alone. -/
structure Decimal.IsLeading (whole : List Digit) : Prop where
  filled : whole ≠ []
  nought : ∀ more, whole = Digit.zero :: more → more = []

namespace Decimal.Literal

/-- A number that JSON can write. -/
structure IsJson (l : Literal) : Prop where
  leading : IsLeading l.whole
  exponent : ∀ e, l.exponent = some e → e.digits ≠ []

/-- The text of a number behind its sign. -/
def size (l : Literal) : List Char :=
  Digit.text l.whole
    ++ ((if l.fraction.isEmpty then [] else '.' :: Digit.text l.fraction)
      ++ (l.exponent.map Exponent.text).getD [])

theorem text_eq (l : Literal) : l.text = (if l.negative then ['-'] else []) ++ l.size := by
  unfold text size
  cases l.exponent with
  | none => simp only [List.append_assoc, Option.map_none, Option.getD_none]
  | some e => simp only [List.append_assoc, Option.map_some, Option.getD_some]

end Decimal.Literal

open Glyph (ofChars)

namespace Json.Reader

theorem ofChars_append (xs ys : List Char) : ofChars (xs ++ ys) = ofChars xs ++ ofChars ys :=
  List.map_append

theorem ofChars_cons (c : Char) (cs : List Char) : ofChars (c :: cs) = .char c :: ofChars cs := rfl

/-- What may follow a value: nothing that a number could go on with. -/
def Apart (tail : List Glyph) : Prop :=
  ∀ g, tail.head? = some g →
    digit? g = none ∧ isChar '.' g = false ∧ isChar 'e' g = false ∧ isChar 'E' g = false

/-- A row of digits is read up to where it ends. -/
theorem takeRow_text (row : List Digit) {tail : List Glyph}
    (stop : ∀ g, tail.head? = some g → digit? g = none) :
    Digit.takeRow digit? (ofChars (Digit.text row) ++ tail) = (row, tail) := by
  have known (d : Digit) : digit? (.char d.toChar) = some d := Digit.ofChar?_toChar d
  have symbols : ofChars (Digit.text row) = row.map fun d => .char d.toChar := List.map_map
  rw [symbols]
  exact Digit.takeRow_map known row stop

/-- Behind an `e` and a sign stand the digits of an exponent. -/
theorem exponent_signed (negative minus : Bool) (whole fraction : List Digit) (gs : List Glyph) :
    exponent negative whole fraction (.char 'e' :: .char (if minus then '-' else '+') :: gs)
      = match Digit.takeRow digit? gs with
        | ([], tail) => noDigit tail
        | (digits, tail) =>
          (.number { negative, whole, fraction, exponent := some { negative := minus, digits } },
            tail) := by
  cases minus with
  | _ => rfl

/-- The exponent of a number is read, or that it has none. -/
theorem exponent_text {negative : Bool} {whole fraction : List Digit} {e : Option Decimal.Exponent}
    (digits : ∀ x, e = some x → x.digits ≠ []) {tail : List Glyph} (apart : Apart tail) :
    exponent negative whole fraction
        (ofChars ((e.map Decimal.Exponent.text).getD []) ++ tail)
      = (.number { negative, whole, fraction, exponent := e }, tail) := by
  cases e with
  | none =>
      cases tail with
      | nil => rfl
      | cons g rest =>
          obtain ⟨-, -, small, large⟩ := apart g rfl
          change exponent negative whole fraction (g :: rest) = _
          simp only [exponent, small, large]
          rfl
  | some e =>
      obtain ⟨minus, row⟩ := e
      have filled : row ≠ [] := digits _ rfl
      refine (exponent_signed negative minus whole fraction
        (ofChars (Digit.text row) ++ tail)).trans ?_
      rw [takeRow_text row fun g head => (apart g head).1]
      cases row with
      | nil => exact absurd rfl filled
      | cons d row => rfl

section

variable {d : Digit} {more : List Digit} (nought : d = Digit.zero → more = [])
  {rest : List Glyph}

include nought

/-- Behind the digits of a number without a point stands its exponent. -/
theorem number_plain (negative : Bool)
    (stop : ∀ g, rest.head? = some g → digit? g = none ∧ isChar '.' g = false) :
    number negative (ofChars (Digit.text (d :: more)) ++ rest)
      = exponent negative (d :: more) [] rest := by
  have leading : ¬ (d = Digit.zero ∧ more ≠ []) := fun ⟨zero, some_more⟩ => some_more (nought zero)
  unfold number
  rw [takeRow_text _ fun g head => (stop g head).1]
  dsimp only
  rw [if_neg leading]
  cases rest with
  | nil => rfl
  | cons g rest =>
      dsimp only
      rw [(stop g rfl).2]
      rfl

/-- Behind a point stand further digits, and then the exponent. -/
theorem number_pointed (negative : Bool) {f : Digit} {row : List Digit}
    (stop : ∀ g, rest.head? = some g → digit? g = none) :
    number negative (ofChars (Digit.text (d :: more))
        ++ .char '.' :: (ofChars (Digit.text (f :: row)) ++ rest))
      = exponent negative (d :: more) (f :: row) rest := by
  have leading : ¬ (d = Digit.zero ∧ more ≠ []) := fun ⟨zero, some_more⟩ => some_more (nought zero)
  have point (g : Glyph)
      (head : (Glyph.char '.' :: (ofChars (Digit.text (f :: row)) ++ rest)).head? = some g) :
      digit? g = none := by
    obtain rfl := Option.some.inj head
    rfl
  unfold number
  rw [takeRow_text _ point]
  dsimp only
  rw [if_neg leading, takeRow_text _ stop]
  rfl

end

/-- A number is read behind its sign. -/
theorem number_size {l : Decimal.Literal} (json : l.IsJson) {tail : List Glyph}
    (apart : Apart tail) : number l.negative (ofChars l.size ++ tail) = (.number l, tail) := by
  obtain ⟨negative, whole, fraction, e⟩ := l
  obtain ⟨⟨some_digits, nought⟩, digits⟩ := json
  dsimp only at some_digits nought digits
  -- Behind the digits stands an exponent or nothing, and then what follows the number.
  have stop : ∀ g, (ofChars ((e.map Decimal.Exponent.text).getD []) ++ tail).head? = some g →
      digit? g = none ∧ isChar '.' g = false := by
    intro g head
    cases e with
    | none => exact ⟨(apart g head).1, (apart g head).2.1⟩
    | some x =>
        obtain rfl := Option.some.inj head
        exact ⟨rfl, rfl⟩
  unfold Decimal.Literal.size
  rw [ofChars_append, List.append_assoc, ofChars_append, List.append_assoc]
  cases whole with
  | nil => exact absurd rfl some_digits
  | cons d more =>
      have nought : d = Digit.zero → more = [] := fun zero => nought more (zero ▸ rfl)
      cases fraction with
      | nil => exact (number_plain nought negative stop).trans (exponent_text digits apart)
      | cons f row =>
          have digits_stop := fun g head => (stop g head).1
          exact (number_pointed nought negative digits_stop).trans (exponent_text digits apart)

/-! ### Strings -/

/-- The code of a control character is written with two digits behind two noughts. -/
theorem code?_control (n : Fin 32) : ∃ a b : Char,
    (if n.val < 0x10 then ['0'] else []) ++ Text.hexText n.val = [a, b] ∧
      code? (.char '0') (.char '0') (.char a) (.char b) = some n.val := by
  have known : ∀ n : Fin 32, ("01".toList.any fun a => "0123456789abcdef".toList.any fun b =>
      (if n.val < 0x10 then ['0'] else []) ++ Text.hexText n.val == [a, b]
        && code? (.char '0') (.char '0') (.char a) (.char b) == some n.val) = true := by
    decide +kernel
  obtain ⟨a, -, found⟩ := List.any_eq_true.mp (known n)
  obtain ⟨b, -, found⟩ := List.any_eq_true.mp found
  obtain ⟨digits, code⟩ := (Bool.and_eq_true _ _).mp found
  exact ⟨a, b, eq_of_beq digits, eq_of_beq code⟩

/-- An escaped control character is read. -/
theorem quoted_control {c : Char} (control : c.toNat < 0x20) (gs : List Glyph) :
    quoted (ofChars (['\\', 'u', '0', '0'] ++ (if c.toNat < 0x10 then ['0'] else [])
        ++ Text.hexText c.toNat) ++ gs)
      = before (.char c) (quoted gs) := by
  obtain ⟨a, b, digits, code⟩ := code?_control ⟨c.toNat, control⟩
  dsimp only at digits code
  have piece : pieceOfCode c.toNat = .char c := by
    rw [pieceOfCode, if_neg (by omega), Char.ofNat_toNat]
  rw [List.append_assoc, digits]
  change quoted (.char '\\' :: .char 'u' :: .char '0' :: .char '0' :: .char a :: .char b :: gs) = _
  rw [quoted.eq_def]
  simp [code, piece]

/-- A character that stands for itself is read. -/
theorem quoted_plain {c : Char} (quote : c ≠ '"') (backslash : c ≠ '\\')
    (visible : ¬ c.toNat < 0x20) (gs : List Glyph) :
    quoted (.char c :: gs) = before (.char c) (quoted gs) := by
  rw [quoted.eq_def]
  simp [quote, backslash, visible]

/-- A character of a string is read as it was printed. -/
theorem quoted_printChar (c : Char) (gs : List Glyph) :
    quoted (ofChars (printChar c) ++ gs) = before (.char c) (quoted gs) := by
  have escape {letter : Char} (known : escaped? (.char letter) = some c) (letter_u : letter ≠ 'u') :
      quoted (.char '\\' :: .char letter :: gs) = before (.char c) (quoted gs) := by
    rw [quoted.eq_def]
    simp [known, letter_u]
  unfold printChar
  split
  next is => subst is; exact escape rfl (by decide)
  next quote =>
  split
  next is => subst is; exact escape rfl (by decide)
  next backslash =>
  split
  next is => subst is; exact escape rfl (by decide)
  split
  next is => subst is; exact escape rfl (by decide)
  split
  next is => subst is; exact escape rfl (by decide)
  split
  next is => subst is; exact escape rfl (by decide)
  split
  next is => subst is; exact escape rfl (by decide)
  split
  next control => exact quoted_control control gs
  next visible => exact quoted_plain quote backslash visible gs

/-- A string is read behind its opening quote. -/
theorem quoted_print (cs : List Char) (tail : List Glyph) :
    quoted (ofChars (cs.flatMap printChar ++ ['"']) ++ tail) = (Quoted.ofChars cs, tail) := by
  induction cs with
  | nil =>
      change quoted (.char '"' :: tail) = _
      rw [quoted.eq_def]
      rfl
  | cons c cs ih =>
      rw [List.flatMap_cons, List.append_assoc, ofChars_append, List.append_assoc, quoted_printChar,
        ih]
      rfl

end Json.Reader

namespace Json

/-! ### Spelled values -/

/-- The blanks that may stand between the parts of a text. -/
def blanks : List Char := [' ', '\n', '\t', '\r']

/-- Blanks between the parts of a text. -/
def IsGap (gap : List Char) : Prop := ∀ c ∈ gap, c ∈ blanks

/-- What stands in front of an item or member: a comma, unless it is the first, and blanks. -/
inductive IsLead : Bool → List Char → Prop where
  | first {gap : List Char} (blank : IsGap gap) : IsLead true gap
  | next {gap more : List Char} (blank : IsGap gap) (blank_behind : IsGap more) :
      IsLead false (gap ++ ',' :: more)

mutual

/-- A text spells a value. There is no blank around the value itself. -/
def Tree.Spelled : Tree → List Char → Prop
  | .null, cs => cs = ['n', 'u', 'l', 'l']
  | .boolean b, cs => cs = printBoolean b
  | .number l, cs => l.IsJson ∧ cs = l.text
  | .string q, cs => ∃ chars, q = Quoted.ofChars chars ∧ cs = q.print
  | .array is, cs => ∃ rest, is.Spelled true rest ∧ cs = '[' :: rest
  | .object ms, cs => ∃ rest, ms.Spelled true rest ∧ cs = '\x7b' :: rest
  | .broken _, _ => False

/-- A text spells items up to the closing bracket. -/
def Items.Spelled (first : Bool) : Items → List Char → Prop
  | .closed, cs => ∃ gap, IsGap gap ∧ cs = gap ++ [']']
  | .cut _, _ => False
  | .item v rest, cs => ∃ lead text more, IsLead first lead ∧ v.Spelled text ∧
      rest.Spelled false more ∧ cs = lead ++ (text ++ more)

/-- A text spells members up to the closing brace. -/
def Members.Spelled (first : Bool) : Members → List Char → Prop
  | .closed, cs => ∃ gap, IsGap gap ∧ cs = gap ++ ['\x7d']
  | .cut _, _ => False
  | .member key v rest, cs => ∃ lead name before behind text more, IsLead first lead ∧
      key = .string (Quoted.ofChars name) ∧ IsGap before ∧ IsGap behind ∧ v.Spelled text ∧
      rest.Spelled false more ∧
      cs = lead ++ ((Quoted.ofChars name).print ++ (before ++ ':' :: (behind ++ (text ++ more))))

end

/-! ### Reading -/

namespace Reader

theorem skipBlanks_ofChars {gap : List Char} (blank : IsGap gap) {rest : List Glyph}
    (stop : ∀ g, rest.head? = some g → isBlank g = false) :
    skipBlanks (ofChars gap ++ rest) = rest := by
  have known : (blanks.all fun c => isBlank (.char c)) = true := by decide
  have skipped : ∀ g ∈ ofChars gap, isBlank g = true := by
    intro g member
    obtain ⟨c, inside, rfl⟩ := List.mem_map.mp member
    exact List.all_eq_true.mp known c (blank c inside)
  unfold skipBlanks
  rw [List.dropWhile_append_of_pos skipped]
  cases rest with
  | nil => rfl
  | cons g rest => simp [stop g rfl]

/-- Blanks in front of a sign are passed over. -/
theorem skipBlanks_char {gap : List Char} (blank : IsGap gap) {c : Char}
    (visible : isBlank (.char c) = false) (rest : List Glyph) :
    skipBlanks (ofChars gap ++ .char c :: rest) = .char c :: rest := by
  apply skipBlanks_ofChars blank
  intro g head
  obtain rfl := Option.some.inj head
  exact visible

/-- The signs behind a value. -/
def ends : List Char := [',', ']', '\x7d'] ++ blanks

theorem blanks_subset_ends : blanks ⊆ ends := List.subset_append_right _ _

theorem apart_of_mem_ends {c : Char} (behind : c ∈ ends) (rest : List Glyph) :
    Apart (.char c :: rest) := by
  have known : (ends.all fun c => digit? (.char c) == none && !isChar '.' (.char c)
      && !isChar 'e' (.char c) && !isChar 'E' (.char c)) = true := by decide
  intro g head
  obtain rfl := Option.some.inj head
  have kinds := List.all_eq_true.mp known c behind
  simp only [Bool.and_eq_true, beq_iff_eq, Bool.not_eq_true'] at kinds
  exact ⟨kinds.1.1.1, kinds.1.1.2, kinds.1.2, kinds.2⟩

/-- Blanks in front of a value do not count. -/
theorem value_gap {gap : List Char} (blank : IsGap gap) {c : Char}
    (visible : isBlank (.char c) = false) (fuel : Nat) (rest : List Glyph) :
    value fuel (ofChars gap ++ .char c :: rest) = value fuel (.char c :: rest) := by
  have alone : skipBlanks (.char c :: rest) = .char c :: rest :=
    @skipBlanks_char [] nofun c visible rest
  cases fuel with
  | zero => rfl
  | succ fuel => rw [value, value, skipBlanks_char blank visible, alone]

/-- A value begins with a sign that is neither a blank nor a closing bracket. -/
theorem head_of_spelled {v : Tree} {text : List Char} (spelled : v.Spelled text) :
    ∃ c rest, text = c :: rest ∧ isBlank (.char c) = false ∧ c ≠ ']' := by
  cases v with
  | null => exact ⟨_, _, spelled, by decide, by decide⟩
  | boolean b =>
      cases b with
      | false => exact ⟨_, _, spelled, by decide, by decide⟩
      | true => exact ⟨_, _, spelled, by decide, by decide⟩
  | number l =>
      obtain ⟨json, rfl⟩ := spelled
      rw [l.text_eq]
      cases negative : l.negative with
      | true => exact ⟨'-', l.size, rfl, by decide, by decide⟩
      | false =>
          cases whole : l.whole with
          | nil => exact absurd whole json.leading.filled
          | cons d more =>
              have digit : ∀ d : Digit, isBlank (.char d.toChar) = false ∧ d.toChar ≠ ']' := by
                decide
              unfold Decimal.Literal.size
              rw [whole]
              exact ⟨d.toChar, _, rfl, (digit d).1, (digit d).2⟩
  | string q =>
      obtain ⟨chars, rfl, rfl⟩ := spelled
      exact ⟨_, _, rfl, by decide, by decide⟩
  | array is =>
      obtain ⟨rest, -, rfl⟩ := spelled
      exact ⟨_, _, rfl, by decide, by decide⟩
  | object ms =>
      obtain ⟨rest, -, rfl⟩ := spelled
      exact ⟨_, _, rfl, by decide, by decide⟩
  | broken c => cases spelled

/-- A value is read from every text that spells it, if something else follows. -/
def Reads (v : Tree) : Prop :=
  ∀ {text : List Char} {tail : List Glyph} {fuel : Nat}, v.Spelled text → Apart tail →
    2 * text.length ≤ fuel → value fuel (ofChars text ++ tail) = (v, tail)

theorem Reads.behind_gap {v : Tree} (reads : Reads v) {text gap : List Char} {tail : List Glyph}
    {fuel : Nat} (spelled : v.Spelled text) (blank : IsGap gap) (apart : Apart tail)
    (enough : 2 * text.length ≤ fuel) :
    value fuel (ofChars gap ++ (ofChars text ++ tail)) = (v, tail) := by
  obtain ⟨c, rest, start, visible, -⟩ := head_of_spelled spelled
  have read := reads spelled apart enough
  subst start
  exact (value_gap blank visible fuel (ofChars rest ++ tail)).trans read

theorem reads_null : Reads .null := by
  rintro text tail fuel rfl apart enough
  cases fuel with
  | zero => cases enough
  | succ fuel => rfl

theorem reads_boolean (b : Bool) : Reads (.boolean b) := by
  rintro text tail fuel rfl apart enough
  cases fuel with
  | zero =>
      cases b with
      | _ => cases enough
  | succ fuel =>
      cases b with
      | _ => rfl

theorem print_ofChars (chars : List Char) :
    (Quoted.ofChars chars).print = '"' :: (chars.flatMap printChar ++ ['"']) := by
  unfold Quoted.print Quoted.ofChars
  rw [List.flatMap_map]
  rfl

theorem reads_string (q : Quoted) : Reads (.string q) := by
  rintro text tail fuel ⟨chars, rfl, rfl⟩ apart enough
  rw [print_ofChars] at enough ⊢
  cases fuel with
  | zero => cases enough
  | succ fuel =>
      have step (gs : List Glyph) :
          value (fuel + 1) (.char '"' :: gs) = (.string (quoted gs).1, (quoted gs).2) := rfl
      rw [ofChars_cons, List.cons_append, step, quoted_print]

theorem value_digit (d : Digit) (fuel : Nat) (gs : List Glyph) :
    value (fuel + 1) (.char d.toChar :: gs) = number false (.char d.toChar :: gs) := by
  have known : ∀ d : Digit, isBlank (.char d.toChar) = false ∧ d.toChar ≠ 'n' ∧ d.toChar ≠ 't' ∧
      d.toChar ≠ 'f' ∧ d.toChar ≠ '-' := by decide
  obtain ⟨visible, no_n, no_t, no_f, no_minus⟩ := known d
  have digit : (Digit.ofChar? d.toChar).isSome = true := by rw [Digit.ofChar?_toChar]; rfl
  have alone : skipBlanks (.char d.toChar :: gs) = .char d.toChar :: gs := by
    simp [skipBlanks, visible]
  rw [value, alone]
  simp [no_n, no_t, no_f, no_minus, digit]

theorem reads_number (l : Decimal.Literal) : Reads (.number l) := by
  rintro text tail fuel ⟨json, rfl⟩ apart enough
  have read := number_size json apart
  rw [l.text_eq] at enough ⊢
  cases negative : l.negative with
  | true =>
      rw [negative] at read enough
      cases fuel with
      | zero => cases enough
      | succ fuel => exact read
  | false =>
      rw [negative] at read enough
      cases whole : l.whole with
      | nil => exact absurd whole json.leading.filled
      | cons d more =>
          obtain ⟨rest, size⟩ : ∃ rest, l.size = d.toChar :: rest := by
            unfold Decimal.Literal.size
            rw [whole]
            exact ⟨_, rfl⟩
          rw [size] at read enough ⊢
          cases fuel with
          | zero => cases enough
          | succ fuel => exact (value_digit d fuel (ofChars rest ++ tail)).trans read

/-! ### Items -/

theorem starts_of_gap {gap : List Char} (blank : IsGap gap) {c : Char} (behind : c ∈ ends)
    (rest : List Char) : ∃ d more, gap ++ c :: rest = d :: more ∧ d ∈ ends := by
  cases gap with
  | nil => exact ⟨c, rest, rfl, behind⟩
  | cons d gap =>
      exact ⟨d, gap ++ c :: rest, rfl, blanks_subset_ends (blank d List.mem_cons_self)⟩

/-- What stands behind a value in an array ends the value. -/
theorem apart_of_items {is : Items} {more : List Char} (spelled : is.Spelled false more)
    (tail : List Glyph) : Apart (ofChars more ++ tail) := by
  have start : ∃ d rest, more = d :: rest ∧ d ∈ ends := by
    cases is with
    | closed =>
        obtain ⟨gap, blank, rfl⟩ := spelled
        exact starts_of_gap blank (by decide) []
    | cut c => cases spelled
    | item v is =>
        obtain ⟨lead, text, more, before, -, -, rfl⟩ := spelled
        cases before with
        | next blank =>
            rw [List.append_assoc]
            exact starts_of_gap blank (by decide) _
  obtain ⟨d, rest, rfl, behind⟩ := start
  exact apart_of_mem_ends behind _

/-- Items are read from every text that spells them behind a value. -/
def ReadsOn (is : Items) : Prop :=
  ∀ {v : Tree} {text more : List Char} {tail : List Glyph} {fuel : Nat}, Reads v →
    v.Spelled text → is.Spelled false more → 2 * (text.length + more.length) + 1 ≤ fuel →
    items fuel (ofChars text ++ (ofChars more ++ tail)) = (.item v is, tail)

theorem items_closing {fuel : Nat} {gs tail : List Glyph} {v : Tree} {gap : List Char}
    (blank : IsGap gap) (read : value fuel gs = (v, ofChars gap ++ .char ']' :: tail)) :
    items (fuel + 1) gs = (.item v .closed, tail) := by
  rw [items, read]
  dsimp only
  rw [skipBlanks_char blank (by decide)]
  rfl

theorem items_comma {fuel : Nat} {gs rest tail : List Glyph} {v : Tree} {is : Items}
    {before behind : List Char} {c : Char} (blank : IsGap before) (blank_behind : IsGap behind)
    (visible : isBlank (.char c) = false) (bracket : c ≠ ']')
    (read : value fuel gs = (v, ofChars before ++ .char ',' :: (ofChars behind ++ .char c :: rest)))
    (others : items fuel (.char c :: rest) = (is, tail)) :
    items (fuel + 1) gs = (.item v is, tail) := by
  have open_still : isChar ']' (.char c) = false := by simp [isChar, bracket]
  rw [items, read]
  dsimp only
  rw [skipBlanks_char blank (by decide)]
  dsimp only
  rw [if_neg (by decide), if_pos (by decide), skipBlanks_char blank_behind visible]
  dsimp only
  rw [open_still, others]
  rfl

theorem readsOn_closed : ReadsOn .closed := by
  rintro v text more tail fuel reads spelled closing enough
  obtain ⟨fuel, rfl⟩ : ∃ n, fuel = n + 1 := ⟨fuel - 1, by omega⟩
  have read : value fuel (ofChars text ++ (ofChars more ++ tail)) = _ :=
    reads spelled (apart_of_items closing tail) (by omega)
  obtain ⟨gap, blank, rfl⟩ := closing
  rw [ofChars_append, List.append_assoc] at read ⊢
  exact items_closing blank read

theorem readsOn_item {w : Tree} {is : Items} (reads_next : Reads w) (others : ReadsOn is) :
    ReadsOn (.item w is) := by
  rintro v text more tail fuel reads spelled following enough
  obtain ⟨fuel, rfl⟩ : ∃ n, fuel = n + 1 := ⟨fuel - 1, by omega⟩
  have read : value fuel (ofChars text ++ (ofChars more ++ tail)) = _ :=
    reads spelled (apart_of_items following tail) (by omega)
  obtain ⟨lead, inner, rest, before, inner_spelled, rest_spelled, rfl⟩ := following
  cases before with
  | @next gap behind blank blank_behind =>
      simp only [List.length_append, List.length_cons] at enough
      have next : items fuel (ofChars inner ++ (ofChars rest ++ tail)) = _ :=
        others reads_next inner_spelled rest_spelled (by omega)
      obtain ⟨c, begun, rfl, visible, bracket⟩ := head_of_spelled inner_spelled
      simp only [ofChars_append, ofChars_cons, List.append_assoc, List.cons_append] at read next ⊢
      exact items_comma blank blank_behind visible bracket read next

/-- Behind an opening bracket there is a closing one, or an item begins. -/
theorem value_bracket {gs rest : List Glyph} {g : Glyph} (inside : skipBlanks gs = g :: rest)
    (fuel : Nat) :
    value (fuel + 1) (.char '[' :: gs)
      = if isChar ']' g then (.array .closed, rest)
        else (.array (items fuel (g :: rest)).1, (items fuel (g :: rest)).2) := by
  have visible : skipBlanks (.char '[' :: gs) = .char '[' :: gs := rfl
  have no_digit : Digit.ofChar? '[' = none := rfl
  rw [value, visible]
  simp [no_digit, inside]

theorem reads_array_closed : Reads (.array .closed) := by
  rintro text tail fuel ⟨rest, ⟨gap, blank, rfl⟩, rfl⟩ apart enough
  obtain ⟨fuel, rfl⟩ : ∃ n, fuel = n + 1 := ⟨fuel - 1, by simp at enough; omega⟩
  simp only [ofChars_append, ofChars_cons, List.append_assoc, List.cons_append]
  exact (value_bracket (skipBlanks_char blank (by decide) tail) fuel).trans (if_pos (by decide))

theorem reads_array_item {v : Tree} {is : Items} (reads : Reads v) (others : ReadsOn is) :
    Reads (.array (.item v is)) := by
  rintro text tail fuel
    ⟨rest, ⟨lead, inner, more, before, spelled, following, rfl⟩, rfl⟩ apart enough
  obtain ⟨fuel, rfl⟩ : ∃ n, fuel = n + 1 := ⟨fuel - 1, by simp at enough; omega⟩
  cases before with
  | first blank =>
      simp only [List.length_append, List.length_cons] at enough
      have next : items fuel (ofChars inner ++ (ofChars more ++ tail)) = _ :=
        others reads spelled following (by omega)
      obtain ⟨c, begun, rfl, visible, bracket⟩ := head_of_spelled spelled
      have open_still : isChar ']' (.char c) = false := by simp [isChar, bracket]
      simp only [ofChars_append, ofChars_cons, List.append_assoc, List.cons_append] at next ⊢
      rw [value_bracket (skipBlanks_char blank visible _), open_still, next]
      rfl

/-! ### Members -/

/-- What stands behind a value in an object ends the value. -/
theorem apart_of_members {ms : Members} {more : List Char} (spelled : ms.Spelled false more)
    (tail : List Glyph) : Apart (ofChars more ++ tail) := by
  have start : ∃ d rest, more = d :: rest ∧ d ∈ ends := by
    cases ms with
    | closed =>
        obtain ⟨gap, blank, rfl⟩ := spelled
        exact starts_of_gap blank (by decide) []
    | cut c => cases spelled
    | member key v ms =>
        obtain ⟨lead, name, before, behind, text, more, leads, -, -, -, -, -, rfl⟩ := spelled
        cases leads with
        | next blank =>
            rw [List.append_assoc]
            exact starts_of_gap blank (by decide) _
  obtain ⟨d, rest, rfl, behind⟩ := start
  exact apart_of_mem_ends behind _

/-- Members are read from every text that spells them behind a name and a value. -/
def ReadsMembers (ms : Members) : Prop :=
  ∀ {v : Tree} {before behind text more : List Char} {fuel : Nat} (name : List Char)
    (tail : List Glyph), Reads v → IsGap before → IsGap behind → v.Spelled text →
    ms.Spelled false more → 2 * (text.length + more.length) + 1 ≤ fuel →
    members fuel (ofChars (Quoted.ofChars name).print ++ (ofChars before
        ++ .char ':' :: (ofChars behind ++ (ofChars text ++ (ofChars more ++ tail)))))
      = (.member (.string (Quoted.ofChars name)) v ms, tail)

/-- A name is read up to its closing quote. -/
theorem key_print (name : List Char) (rest : List Glyph) :
    key (ofChars (Quoted.ofChars name).print ++ rest)
      = (.string (Quoted.ofChars name), rest) := by
  rw [print_ofChars]
  have step (gs : List Glyph) :
      key (.char '"' :: gs) = (.string (quoted gs).1, (quoted gs).2) := rfl
  rw [ofChars_cons, List.cons_append, step, quoted_print]

theorem members_closing {fuel : Nat} {gs behind tail : List Glyph} {v name : Tree}
    {before gap : List Char} (blank : IsGap before) (blank_end : IsGap gap)
    (named : key gs = (name, ofChars before ++ .char ':' :: behind))
    (read : value fuel behind = (v, ofChars gap ++ .char '\x7d' :: tail)) :
    members (fuel + 1) gs = (.member name v .closed, tail) := by
  rw [members, named]
  dsimp only
  rw [skipBlanks_char blank (by decide)]
  dsimp only
  rw [if_pos (by decide), read]
  dsimp only
  rw [skipBlanks_char blank_end (by decide)]
  rfl

theorem members_comma {fuel : Nat} {gs behind rest tail : List Glyph} {v name : Tree} {ms : Members}
    {before gap more : List Char} (blank : IsGap before) (blank_end : IsGap gap)
    (blank_behind : IsGap more) {c : Char} (visible : isBlank (.char c) = false)
    (named : key gs = (name, ofChars before ++ .char ':' :: behind))
    (read : value fuel behind
      = (v, ofChars gap ++ .char ',' :: (ofChars more ++ .char c :: rest)))
    (others : members fuel (.char c :: rest) = (ms, tail)) :
    members (fuel + 1) gs = (.member name v ms, tail) := by
  rw [members, named]
  dsimp only
  rw [skipBlanks_char blank (by decide)]
  dsimp only
  rw [if_pos (by decide), read]
  dsimp only
  rw [skipBlanks_char blank_end (by decide)]
  dsimp only
  rw [if_neg (by decide), if_pos (by decide), skipBlanks_char blank_behind visible]
  dsimp only
  rw [others]

theorem readsMembers_closed : ReadsMembers .closed := by
  rintro v before behind text more fuel name tail reads blank blank_behind spelled closing enough
  obtain ⟨fuel, rfl⟩ : ∃ n, fuel = n + 1 := ⟨fuel - 1, by omega⟩
  have read : value fuel (ofChars behind ++ (ofChars text ++ (ofChars more ++ tail))) = _ :=
    reads.behind_gap spelled blank_behind (apart_of_members closing tail) (by omega)
  obtain ⟨gap, blank_end, rfl⟩ := closing
  simp only [ofChars_append gap, List.append_assoc] at read ⊢
  exact members_closing blank blank_end (key_print name _) read

theorem readsMembers_member {key w : Tree} {ms : Members} (reads_next : Reads w)
    (others : ReadsMembers ms) : ReadsMembers (.member key w ms) := by
  rintro v before behind text more fuel name tail reads blank blank_behind spelled following enough
  obtain ⟨fuel, rfl⟩ : ∃ n, fuel = n + 1 := ⟨fuel - 1, by omega⟩
  have read : value fuel (ofChars behind ++ (ofChars text ++ (ofChars more ++ tail))) = _ :=
    reads.behind_gap spelled blank_behind (apart_of_members following tail) (by omega)
  obtain ⟨lead, next, gap, gap_behind, inner, rest, leads, rfl, gap_blank, gap_behind_blank,
    inner_spelled, rest_spelled, rfl⟩ := following
  cases leads with
  | @next front rear front_blank rear_blank =>
      simp only [List.length_append, List.length_cons] at enough
      have next_read := @others w gap gap_behind inner rest fuel next tail reads_next gap_blank
        gap_behind_blank inner_spelled rest_spelled (by omega)
      have behind_value : ofChars (front ++ ',' :: rear ++ ((Quoted.ofChars next).print
            ++ (gap ++ ':' :: (gap_behind ++ (inner ++ rest))))) ++ tail
          = ofChars front ++ .char ',' :: (ofChars rear ++ (ofChars (Quoted.ofChars next).print
            ++ (ofChars gap ++ .char ':' :: (ofChars gap_behind
              ++ (ofChars inner ++ (ofChars rest ++ tail)))))) := by
        simp only [ofChars_append, ofChars_cons, List.append_assoc, List.cons_append]
      rw [behind_value] at read ⊢
      rw [print_ofChars next] at read next_read ⊢
      exact members_comma blank front_blank rear_blank (by decide) (key_print name _) read next_read

/-- Behind an opening brace there is a closing one, or a member begins. -/
theorem value_brace {gs rest : List Glyph} {g : Glyph} (inside : skipBlanks gs = g :: rest)
    (fuel : Nat) :
    value (fuel + 1) (.char '\x7b' :: gs)
      = if isChar '\x7d' g then (.object .closed, rest)
        else (.object (members fuel (g :: rest)).1, (members fuel (g :: rest)).2) := by
  have visible : skipBlanks (.char '\x7b' :: gs) = .char '\x7b' :: gs := rfl
  have no_digit : Digit.ofChar? '\x7b' = none := rfl
  rw [value, visible]
  simp [no_digit, inside]

theorem reads_object_closed : Reads (.object .closed) := by
  rintro text tail fuel ⟨rest, ⟨gap, blank, rfl⟩, rfl⟩ apart enough
  obtain ⟨fuel, rfl⟩ : ∃ n, fuel = n + 1 := ⟨fuel - 1, by simp at enough; omega⟩
  simp only [ofChars_append, ofChars_cons, List.append_assoc, List.cons_append]
  exact (value_brace (skipBlanks_char blank (by decide) tail) fuel).trans (if_pos (by decide))

theorem reads_object_member {key v : Tree} {ms : Members} (reads : Reads v)
    (others : ReadsMembers ms) : Reads (.object (.member key v ms)) := by
  rintro text tail fuel ⟨rest, ⟨lead, name, before, behind, inner, more, leads, rfl, blank,
    blank_behind, spelled, following, rfl⟩, rfl⟩ apart enough
  obtain ⟨fuel, rfl⟩ : ∃ n, fuel = n + 1 := ⟨fuel - 1, by simp at enough; omega⟩
  cases leads with
  | first front_blank =>
      simp only [List.length_append, List.length_cons] at enough
      have next := @others v before behind inner more fuel name tail reads blank blank_behind
        spelled following (by omega)
      rw [print_ofChars] at next ⊢
      simp only [ofChars_append, ofChars_cons, List.append_assoc, List.cons_append] at next ⊢
      rw [value_brace (skipBlanks_char front_blank (by decide) _), if_neg (by decide), next]

/-! ### Documents -/

mutual

/-- Every value is read from the texts that spell it. -/
theorem reads_value : (v : Tree) → Reads v
  | .null => reads_null
  | .boolean b => reads_boolean b
  | .number l => reads_number l
  | .string q => reads_string q
  | .array .closed => reads_array_closed
  | .array (.cut _) => fun ⟨_, spelled, _⟩ => nomatch spelled
  | .array (.item v is) => reads_array_item (reads_value v) (reads_items is)
  | .object .closed => reads_object_closed
  | .object (.cut _) => fun ⟨_, spelled, _⟩ => nomatch spelled
  | .object (.member _ v ms) => reads_object_member (reads_value v) (reads_members ms)
  | .broken _ => fun spelled => nomatch spelled

/-- So are items behind a value. -/
theorem reads_items : (is : Items) → ReadsOn is
  | .closed => readsOn_closed
  | .cut _ => fun _ _ spelled => nomatch spelled
  | .item v is => readsOn_item (reads_value v) (reads_items is)

/-- So are members behind a name and a value. -/
theorem reads_members : (ms : Members) → ReadsMembers ms
  | .closed => readsMembers_closed
  | .cut _ => fun _ _ _ _ _ _ spelled => nomatch spelled
  | .member _ v ms => readsMembers_member (reads_value v) (reads_members ms)

end

theorem apart_gap {gap : List Char} (blank : IsGap gap) : Apart (ofChars gap) := by
  intro g head
  cases gap with
  | nil => cases head
  | cons c gap =>
      have behind := blanks_subset_ends (blank c List.mem_cons_self)
      exact apart_of_mem_ends behind (ofChars gap) g head

/-- A document is the value that its text spells, if there is nothing but blanks around that. -/
theorem document_spelled {v : Tree} {text before behind : List Char} (spelled : v.Spelled text)
    (blank : IsGap before) (blank_behind : IsGap behind) :
    document (ofChars (before ++ text ++ behind)) = { root := v, trailing := false } := by
  have rest : skipBlanks (ofChars behind) = [] := by
    have none_left := @skipBlanks_ofChars behind blank_behind [] nofun
    rwa [List.append_nil] at none_left
  have read : value (2 * (ofChars (before ++ text ++ behind)).length + 2)
      (ofChars before ++ (ofChars text ++ ofChars behind)) = (v, ofChars behind) := by
    refine Reads.behind_gap (reads_value v) spelled blank (apart_gap blank_behind) ?_
    simp only [ofChars, List.length_map, List.length_append]
    omega
  unfold document
  rw [← List.append_assoc, ← ofChars_append, ← ofChars_append] at read
  rw [read]
  dsimp only
  rw [rest]
  rfl

end Reader

end Json

end PriceSignals
