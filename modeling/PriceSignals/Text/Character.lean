/-
Module: PriceSignals.Text.Character
Purpose: Characters by their codes, and parts of texts: ranges of codes, codes in hexadecimal
  digits, blanks around a text, and places in a text that are counted in bytes of UTF-8.
Main exports:
  CodeRange, CodeRange.anyHolds, hexText, hexDigit?, coded?, isBlank, trimStart, trimEnd, trim,
  asciiLower, byteLength, slice?
-/
import PriceSignals.Text.Glyph

namespace PriceSignals.Text

/-! ### Ranges of codes -/

/-- The codes from a first to a last one. -/
abbrev CodeRange := Nat × Nat

namespace CodeRange

/-- Whether a code lies in a range. -/
def holds (r : CodeRange) (n : Nat) : Bool := r.1 ≤ n && n ≤ r.2

/-- Whether a code lies in one of some ranges. -/
def anyHolds (ranges : List CodeRange) (n : Nat) : Bool := ranges.any fun r => r.holds n

end CodeRange

/-! ### Hexadecimal digits -/

/-- A number in hexadecimal digits, lower case and without leading zeros. -/
def hexText (n : Nat) : List Char := Nat.toDigits 16 n

/-- The value of a hexadecimal digit in either case. -/
def hexDigit? (c : Char) : Option Nat :=
  if '0' ≤ c ∧ c ≤ '9' then some (c.toNat - 48)
  else if 'a' ≤ c ∧ c ≤ 'f' then some (c.toNat - 87)
  else if 'A' ≤ c ∧ c ≤ 'F' then some (c.toNat - 55)
  else none

/-- The character whose code is written in exactly `count` hexadecimal digits at the front of a
text. -/
def coded? (count : Nat) (cs : List Char) : Option Char := do
  let digits ← (cs.take count).mapM hexDigit?
  if digits.length = count then Glyph.scalar? 0 (digits.foldl (fun n d => n * 16 + d) 0) else none

/-! ### Blanks -/

/-- The characters with the Unicode property White_Space. -/
def isBlank (c : Char) : Bool :=
  let n := c.toNat
  (9 ≤ n && n ≤ 13) || n == 0x20 || n == 0x85 || n == 0xA0 || n == 0x1680
    || (0x2000 ≤ n && n ≤ 0x200A) || n == 0x2028 || n == 0x2029 || n == 0x202F || n == 0x205F
    || n == 0x3000

/-- A text from its first character on that is not blank. -/
def trimStart (cs : List Char) : List Char := cs.dropWhile isBlank

/-- A text up to its last character that is not blank. -/
def trimEnd (cs : List Char) : List Char := (cs.reverse.dropWhile isBlank).reverse

/-- A text without the blanks at both ends. -/
def trim (cs : List Char) : List Char := trimEnd (trimStart cs)

/-- The ASCII letters in lower case; every other character stays as it is. -/
def asciiLower (cs : List Char) : List Char := cs.map Char.toLower

/-! ### Places in bytes -/

/-- How many bytes a text takes. -/
def byteLength (cs : List Char) : Nat := cs.foldr (fun c n => c.utf8Size + n) 0

/-- What is left of a text behind some bytes, unless they end within a character. -/
def dropBytes? : Nat → List Char → Option (List Char)
  | 0, cs => some cs
  | _ + 1, [] => none
  | n + 1, c :: cs => if c.utf8Size ≤ n + 1 then dropBytes? (n + 1 - c.utf8Size) cs else none
termination_by _ cs => cs.length

/-- The first bytes of a text, unless they end within a character. -/
def takeBytes? : Nat → List Char → Option (List Char)
  | 0, _ => some []
  | _ + 1, [] => none
  | n + 1, c :: cs =>
    if c.utf8Size ≤ n + 1 then (takeBytes? (n + 1 - c.utf8Size) cs).map (c :: ·) else none
termination_by _ cs => cs.length

/-- The part of a text between two places, unless one of them lies within a character. -/
def slice? (start stop : Nat) (cs : List Char) : Option (List Char) :=
  (dropBytes? start cs).bind (takeBytes? (stop - start))

end PriceSignals.Text
