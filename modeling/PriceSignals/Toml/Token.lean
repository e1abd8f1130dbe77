/-
Module: PriceSignals.Toml.Token
Purpose: The parts of TOML text that are not values: blanks, comments, line ends, and keys; and
  strings.
Main exports:
  unifyLineEnds, skipBlanks, skipLoose, lineEnd, basicText, literalText, multilineBasic,
  multilineLiteral, text, keyPath
-/
import PriceSignals.Text.Character
import PriceSignals.Toml.Value

namespace PriceSignals.Toml

/-! ### Blanks, comments, and line ends -/

/-- Writes every line end as one line feed. A carriage return that ends no line stays, and is
then allowed nowhere. -/
def unifyLineEnds : List Char → List Char
  | [] => []
  | '\r' :: '\n' :: rest => '\n' :: unifyLineEnds rest
  | c :: rest => c :: unifyLineEnds rest

/-- The blanks within a line. -/
def isBlank (c : Char) : Bool := c = ' ' || c = '\t'

/-- What follows after blanks. -/
def skipBlanks (cs : List Char) : List Char := cs.dropWhile isBlank

/-- The characters that comments and strings may hold as they are: no control character but the
tab. -/
def inText (c : Char) : Bool := c = '\t' || (0x20 ≤ c.toNat && c ≠ '\x7f')

/-- What follows after blanks, line ends, and comments, which end with their lines. `comment`
tells whether the text starts within a comment. -/
def skipLoose (comment : Bool) : List Char → Option (List Char)
  | [] => if comment then none else some []
  | c :: rest =>
    if c = '\n' then skipLoose false rest
    else if comment then if inText c then skipLoose true rest else none
    else if isBlank c then skipLoose false rest
    else if c = '#' then skipLoose true rest
    else some (c :: rest)

/-- The next line, if there is nothing but a comment left on this one. -/
def lineEnd (cs : List Char) : Option (List Char) :=
  let rest :=
    match skipBlanks cs with
    | '#' :: rest => rest.dropWhile inText
    | rest => rest
  match rest with
  | [] => some []
  | '\n' :: rest => some rest
  | _ => none

/-! ### Escapes -/

/-- The character of an escape, from what follows its backslash, and how many characters the
escape takes there. -/
def escape? : List Char → Option (Char × Nat)
  | 'b' :: _ => some ('\x08', 1)
  | 't' :: _ => some ('\t', 1)
  | 'n' :: _ => some ('\n', 1)
  | 'f' :: _ => some ('\x0c', 1)
  | 'r' :: _ => some ('\r', 1)
  | '"' :: _ => some ('"', 1)
  | '\\' :: _ => some ('\\', 1)
  | 'u' :: rest => (Text.coded? 4 rest).map (·, 5)
  | 'U' :: rest => (Text.coded? 8 rest).map (·, 9)
  | _ => none

/-! ### Strings -/

/-- Puts a character before a string. -/
def before (c : Char) (r : List Char × List Char) : List Char × List Char := (c :: r.1, r.2)

/-- A string in double quotes, after the first of them, and what follows it. -/
def basicText : List Char → Option (List Char × List Char)
  | [] => none
  | c :: rest =>
    if c = '"' then some ([], rest)
    else if c = '\\' then
      match escape? rest with
      | some (e, width) => (basicText (rest.drop width)).map (before e)
      | none => none
    else if inText c then (basicText rest).map (before c)
    else none
termination_by cs => cs.length
decreasing_by
  · simp only [List.length_drop, List.length_cons]; omega
  · simp

/-- A string in single quotes, after the first of them, and what follows it. -/
def literalText : List Char → Option (List Char × List Char)
  | [] => none
  | c :: rest =>
    if c = '\'' then some ([], rest)
    else if inText c then (literalText rest).map (before c)
    else none

/-- The end of a string in three quotes, from behind the first quote of it: up to two more
quotes belong to the string. -/
def closing? (quote : Char) (cs : List Char) : Option (List Char × List Char) :=
  let more := (cs.takeWhile (· = quote)).length
  if more < 2 then none
  else
    let kept := min (more - 2) 2
    some (List.replicate kept quote, cs.drop (2 + kept))

/-- The rest of a string behind a backslash that ends its line: the blanks and line ends up to
the next other character do not count. -/
def continued? (cs : List Char) : Option (List Char) :=
  match skipBlanks cs with
  | '\n' :: rest => some (rest.dropWhile fun c => isBlank c || c = '\n')
  | _ => none

/-- What is left behind a line that is continued is shorter. -/
theorem length_continued? {cs rest : List Char} (h : continued? cs = some rest) :
    rest.length < cs.length := by
  unfold continued? at h
  split at h
  · rename_i tail blank
    have dropped : (skipBlanks cs).length ≤ cs.length := (List.dropWhile_suffix isBlank).length_le
    have kept := (List.dropWhile_suffix (l := tail) fun c => isBlank c || c = '\n').length_le
    rw [blank, List.length_cons] at dropped
    injection h with h
    subst h
    omega
  · contradiction

/-- A string in three double quotes, after its opening, and what follows it. -/
def multilineBasic : List Char → Option (List Char × List Char)
  | [] => none
  | c :: rest =>
    if c = '"' then
      match closing? '"' rest with
      | some r => some r
      | none => (multilineBasic rest).map (before '"')
    else if c = '\\' then
      match _shorter : continued? rest with
      | some rest => multilineBasic rest
      | none =>
        match escape? rest with
        | some (e, width) => (multilineBasic (rest.drop width)).map (before e)
        | none => none
    else if c = '\n' || inText c then (multilineBasic rest).map (before c)
    else none
termination_by cs => cs.length
decreasing_by
  · simp
  · have := length_continued? _shorter; simp only [List.length_cons]; omega
  · simp only [List.length_drop, List.length_cons]; omega
  · simp

/-- A string in three single quotes, after its opening, and what follows it. -/
def multilineLiteral : List Char → Option (List Char × List Char)
  | [] => none
  | c :: rest =>
    if c = '\'' then
      match closing? '\'' rest with
      | some r => some r
      | none => (multilineLiteral rest).map (before '\'')
    else if c = '\n' || inText c then (multilineLiteral rest).map (before c)
    else none

/-- The content of a string in three quotes starts behind a line end that follows its opening. -/
def skipFirstLineEnd : List Char → List Char
  | '\n' :: rest => rest
  | cs => cs

/-- A string of any kind, and what follows it. -/
def text : List Char → Option (List Char × List Char)
  | '"' :: '"' :: '"' :: rest => multilineBasic (skipFirstLineEnd rest)
  | '"' :: rest => basicText rest
  | '\'' :: '\'' :: '\'' :: rest => multilineLiteral (skipFirstLineEnd rest)
  | '\'' :: rest => literalText rest
  | _ => none

/-! ### Keys -/

/-- The characters of a key without quotes. -/
def inKey (c : Char) : Bool := c.isAlphanum || c = '-' || c = '_'

/-- One part of a key, and what follows it. -/
def key : List Char → Option (Key × List Char)
  | '"' :: rest => basicText rest
  | '\'' :: rest => literalText rest
  | cs =>
    match cs.takeWhile inKey with
    | [] => none
    | bare => some (bare, cs.dropWhile inKey)

/-- The parts of a dotted key, at most `room` many, with what follows it. The last part comes
apart from the others. -/
def keyPath : Nat → List Char → Option ((List Key × Key) × List Char)
  | 0, _ => none
  | room + 1, cs => do
    let (k, rest) ← key (skipBlanks cs)
    match skipBlanks rest with
    | '.' :: rest =>
      let ((path, last), rest) ← keyPath room rest
      return ((k :: path, last), rest)
    | rest => return (([], k), rest)

end PriceSignals.Toml
