/-
Module: PriceSignals.Text.Glyph
Purpose: What a file holds when it is read as UTF-8: characters, and bytes that belong to none.
Main exports:
  Glyph, Glyph.ofBytes, Glyph.ofString, Glyph.chars?, Glyph.joined?, Glyph.width
-/

namespace PriceSignals

/-- One unit of a file that is meant to be UTF-8. -/
inductive Glyph where
  /-- A character. -/
  | char (c : Char)
  /-- A byte that is part of no character. -/
  | stray (b : UInt8)
deriving Repr, DecidableEq

namespace Glyph

/-! ### From bytes -/

/-- The six low bits of a byte that continues a character. -/
def continuation? (b : UInt8) : Option Nat :=
  if 0x80 ≤ b.toNat ∧ b.toNat < 0xC0 then some (b.toNat - 0x80) else none

/-- A character whose code is at least `low`; a code below that is written with too many
bytes. Codes between `0xD800` and `0xDFFF` are not characters. -/
def scalar? (low n : Nat) : Option Char :=
  if h : n.isValidChar then
    if low ≤ n then some (Char.ofNatAux n h) else none
  else none

/-- The character at the front of some bytes, and how many further bytes it takes. -/
def leading? : List UInt8 → Option (Char × Nat)
  | [] => none
  | a :: rest =>
    let n := a.toNat
    if n < 0x80 then (scalar? 0 n).map (·, 0)
    else if n < 0xC0 then none
    else if n < 0xE0 then
      match rest with
      | b :: _ => do
        let b ← continuation? b
        let c ← scalar? 0x80 ((n - 0xC0) * 64 + b)
        return (c, 1)
      | _ => none
    else if n < 0xF0 then
      match rest with
      | b :: c :: _ => do
        let b ← continuation? b
        let c ← continuation? c
        let ch ← scalar? 0x800 (((n - 0xE0) * 64 + b) * 64 + c)
        return (ch, 2)
      | _ => none
    else if n < 0xF8 then
      match rest with
      | b :: c :: d :: _ => do
        let b ← continuation? b
        let c ← continuation? c
        let d ← continuation? d
        let ch ← scalar? 0x10000 ((((n - 0xF0) * 64 + b) * 64 + c) * 64 + d)
        return (ch, 3)
      | _ => none
    else none

/-- Reads bytes as UTF-8, character by character. -/
def ofBytes : List UInt8 → List Glyph
  | [] => []
  | b :: rest =>
    match leading? (b :: rest) with
    | some (c, more) => char c :: ofBytes (rest.drop more)
    | none => stray b :: ofBytes rest
termination_by bytes => bytes.length
decreasing_by
  · simp only [List.length_drop, List.length_cons]; omega
  · simp

/-! ### From and to text -/

/-- A text has only characters. -/
def ofChars (cs : List Char) : List Glyph := cs.map char

/-- A string has only characters. -/
def ofString (s : String) : List Glyph := ofChars s.toList

/-- The character of a glyph, unless it is a stray byte. -/
def char? : Glyph → Option Char
  | char c => some c
  | stray _ => none

/-- The text of some glyphs, unless there is a stray byte among them. -/
def chars? (gs : List Glyph) : Option (List Char) := gs.mapM char?

/-- The text of a text's glyphs is that text. -/
theorem chars?_ofChars (cs : List Char) : chars? (ofChars cs) = some cs := by
  induction cs with
  | nil => rfl
  | cons c cs ih =>
    change (char c :: ofChars cs).mapM char? = some (c :: cs)
    rw [List.mapM_cons]
    change (ofChars cs).mapM char? = some cs at ih
    rw [ih]
    rfl

/-- The bytes of a glyph. -/
def bytes : Glyph → List UInt8
  | char c => String.utf8EncodeChar c
  | stray b => [b]

/-- The text of glyphs between which others have been taken out: stray bytes that have come
together may be a character after all. -/
def joined? (gs : List Glyph) : Option (List Char) :=
  match chars? gs with
  | some cs => some cs
  | none => chars? (ofBytes (gs.flatMap bytes))

/-- How many bytes a glyph takes. -/
def width : Glyph → Nat
  | char c => c.utf8Size
  | stray _ => 1

end Glyph

end PriceSignals
