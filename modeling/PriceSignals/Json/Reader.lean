/-
Module: PriceSignals.Json.Reader
Purpose: The tree of a JSON text.
Main exports:
  Reader.value, Reader.Document, Reader.document
-/
import PriceSignals.Json.Tree
import PriceSignals.Text.Character

namespace PriceSignals.Json.Reader

/-! ### Scanners -/

/-- Whether a glyph is a given character. -/
def isChar (c : Char) (g : Glyph) : Bool := g == .char c

/-- The blanks of JSON. -/
def isBlank (g : Glyph) : Bool :=
  g == .char ' ' || g == .char '\n' || g == .char '\t' || g == .char '\r'

/-- What follows after blanks. -/
def skipBlanks (gs : List Glyph) : List Glyph := gs.dropWhile isBlank

/-- The digit that a glyph stands for. -/
def digit? : Glyph → Option Digit
  | .char c => Digit.ofChar? c
  | .stray _ => none

/-- The rest of a word after its first letter. -/
def word (value : Tree) : List Char → List Glyph → Tree × List Glyph
  | [], gs => (value, gs)
  | _ :: _, [] => (.broken .truncatedWord, [])
  | c :: cs, g :: gs => if isChar c g then word value cs gs else (.broken .malformed, [])

/-! ### Numbers -/

/-- What stands where a digit is missing. -/
def noDigit : List Glyph → Tree × List Glyph
  | [] => (.broken .truncatedNumber, [])
  | _ => (.broken .malformed, [])

/-- The exponent of a number, or nothing where there is none; the number is then complete. -/
def exponent (negative : Bool) (whole fraction : List Digit) (gs : List Glyph) :
    Tree × List Glyph :=
  match gs with
  | [] => (.number { negative, whole, fraction, exponent := none }, [])
  | g :: rest =>
    if isChar 'e' g || isChar 'E' g then
      let (minus, rest) :=
        match rest with
        | s :: tail =>
          if isChar '-' s then (true, tail)
          else if isChar '+' s then (false, tail)
          else (false, rest)
        | [] => (false, [])
      match Digit.takeRow digit? rest with
      | ([], tail) => noDigit tail
      | (digits, tail) =>
        let e : Decimal.Exponent := { negative := minus, digits }
        (.number { negative, whole, fraction, exponent := some e }, tail)
    else (.number { negative, whole, fraction, exponent := none }, gs)

/-- A number after its sign. A leading zero stands alone. -/
def number (negative : Bool) (gs : List Glyph) : Tree × List Glyph :=
  match Digit.takeRow digit? gs with
  | ([], rest) => noDigit rest
  | (d :: more, rest) =>
    if d = Digit.zero ∧ more ≠ [] then (.broken .malformed, [])
    else
      match rest with
      | g :: tail =>
        if isChar '.' g then
          match Digit.takeRow digit? tail with
          | ([], tail) => noDigit tail
          | (fraction, tail) => exponent negative (d :: more) fraction tail
        else exponent negative (d :: more) [] rest
      | [] => exponent negative (d :: more) [] []

/-! ### Strings -/

/-- The value of a hexadecimal digit. -/
def hexDigit? : Glyph → Option Nat
  | .char c => Text.hexDigit? c
  | .stray _ => none

/-- The code of four hexadecimal digits. -/
def code? (a b c d : Glyph) : Option Nat := do
  let a ← hexDigit? a
  let b ← hexDigit? b
  let c ← hexDigit? c
  let d ← hexDigit? d
  return ((a * 16 + b) * 16 + c) * 16 + d

/-- A code as part of a string. -/
def pieceOfCode (code : Nat) : Piece :=
  if 0xD800 ≤ code ∧ code < 0xE000 then .half code else .char (Char.ofNat code)

/-- The character that a letter behind a backslash stands for. -/
def escaped? (g : Glyph) : Option Char :=
  match g with
  | .char '"' => some '"'
  | .char '\\' => some '\\'
  | .char '/' => some '/'
  | .char 'b' => some '\x08'
  | .char 'f' => some '\x0c'
  | .char 'n' => some '\n'
  | .char 'r' => some '\r'
  | .char 't' => some '\t'
  | _ => none

/-- Puts a piece before a string. -/
def before (p : Piece) (r : Quoted × List Glyph) : Quoted × List Glyph :=
  ({ r.1 with pieces := p :: r.1.pieces }, r.2)

/-- A string that ends here without its closing quote. -/
def cutString (c : Cut) : Quoted × List Glyph := ({ pieces := [], cut := some c }, [])

/-- A string after its opening quote. -/
def quoted : List Glyph → Quoted × List Glyph
  | [] => cutString .truncated
  | .stray _ :: rest => before .stray (quoted rest)
  | .char c :: rest =>
    if c = '"' then ({ pieces := [], cut := none }, rest)
    else if c = '\\' then
      match rest with
      | [] => cutString .truncated
      | .char 'u' :: rest =>
        match rest with
        | h1 :: h2 :: h3 :: h4 :: rest =>
          match code? h1 h2 h3 h4 with
          | some code => before (pieceOfCode code) (quoted rest)
          | none => cutString .malformed
        | few =>
          let width := few.foldr (fun g n => g.width + n) 0
          cutString (if width < 4 then .truncated else .malformed)
      | g :: rest =>
        match escaped? g with
        | some c => before (.char c) (quoted rest)
        | none => cutString .malformed
    else if c.toNat < 0x20 then cutString .malformed
    else before (.char c) (quoted rest)

/-! ### Values -/

/-- A key, which is a string. -/
def key (gs : List Glyph) : Tree × List Glyph :=
  match gs with
  | .char '"' :: rest =>
    let (q, rest) := quoted rest
    (.string q, rest)
  | _ => (.broken .malformed, [])

mutual

/-- A value. `fuel` bounds the recursion; every symbol uses up at most two units of it. -/
def value : Nat → List Glyph → Tree × List Glyph
  | 0, _ => (.broken .malformed, [])
  | fuel + 1, gs =>
    match skipBlanks gs with
    | [] => (.broken .truncated, [])
    | .stray _ :: _ => (.broken .malformed, [])
    | .char c :: rest =>
      if c = 'n' then word .null ['u', 'l', 'l'] rest
      else if c = 't' then word (.boolean true) ['r', 'u', 'e'] rest
      else if c = 'f' then word (.boolean false) ['a', 'l', 's', 'e'] rest
      else if c = '-' then number true rest
      else if (Digit.ofChar? c).isSome then number false (.char c :: rest)
      else if c = '"' then
        let (q, rest) := quoted rest
        (.string q, rest)
      else if c = '[' then
        match skipBlanks rest with
        | [] => (.array (.cut .truncated), [])
        | g :: tail =>
          if isChar ']' g then (.array .closed, tail)
          else
            let (is, rest) := items fuel (g :: tail)
            (.array is, rest)
      else if c = '\x7b' then
        match skipBlanks rest with
        | [] => (.object (.cut .truncated), [])
        | g :: tail =>
          if isChar '\x7d' g then (.object .closed, tail)
          else
            let (ms, rest) := members fuel (g :: tail)
            (.object ms, rest)
      else (.broken .malformed, [])

/-- The items from one item on. -/
def items : Nat → List Glyph → Items × List Glyph
  | 0, _ => (.cut .malformed, [])
  | fuel + 1, gs =>
    let (v, rest) := value fuel gs
    match skipBlanks rest with
    | [] => (.item v (.cut .truncated), [])
    | g :: tail =>
      if isChar ']' g then (.item v .closed, tail)
      else if isChar ',' g then
        match skipBlanks tail with
        | [] => (.item v (.item (.broken .truncated) .closed), [])
        | h :: tail =>
          if isChar ']' h then (.item v (.item (.broken .malformed) .closed), [])
          else
            let (more, rest) := items fuel (h :: tail)
            (.item v more, rest)
      else (.item v (.cut .malformed), [])

/-- The members from one member on. -/
def members : Nat → List Glyph → Members × List Glyph
  | 0, _ => (.cut .malformed, [])
  | fuel + 1, gs =>
    let (name, rest) := key gs
    match skipBlanks rest with
    | [] => (.member name (.broken .truncated) .closed, [])
    | g :: tail =>
      if isChar ':' g then
        let (v, rest) := value fuel tail
        match skipBlanks rest with
        | [] => (.member name v (.cut .truncated), [])
        | g :: tail =>
          if isChar '\x7d' g then (.member name v .closed, tail)
          else if isChar ',' g then
            match skipBlanks tail with
            | [] => (.member name v (.member (.broken .truncated) .null .closed), [])
            | h :: tail =>
              let (more, rest) := members fuel (h :: tail)
              (.member name v more, rest)
          else (.member name v (.cut .malformed), [])
      else (.member name (.broken .malformed) .closed, [])

end

/-! ### Documents -/

/-- A document: one value, and whether anything but blanks follows it. -/
structure Document where
  root : Tree
  trailing : Bool

/-- The document of a text. -/
def document (gs : List Glyph) : Document :=
  let (root, rest) := value (2 * gs.length + 2) gs
  { root, trailing := !(skipBlanks rest).isEmpty }

end PriceSignals.Json.Reader
