/-
Module: PriceSignals.Json.Printer
Purpose: The text of JSON trees, on one line or laid out.
Main exports:
  Quoted.print, Tree.ofFloat, Tree.print, Tree.layOut
-/
import PriceSignals.Decimal.Style
import PriceSignals.Json.Tree
import PriceSignals.Text.Quoted

namespace PriceSignals.Json

/-! ### Values as trees -/

/-- A whole number as a value. -/
def Tree.ofInt (n : Int) : Tree :=
  .number
    { negative := decide (n < 0), whole := Digit.ofNat n.natAbs, fraction := [], exponent := none }

/-- A double as a value; NaN and the infinities are null. -/
def Tree.ofFloat (x : Float) : Tree :=
  match Decimal.Style.exchange.literal? x with
  | some l => .number l
  | none => .null

/-! ### Strings -/

/-- A character between the quotes of a string. -/
def printChar (c : Char) : List Char :=
  if c = '"' then ['\\', '"']
  else if c = '\\' then ['\\', '\\']
  else if c = '\n' then ['\\', 'n']
  else if c = '\r' then ['\\', 'r']
  else if c = '\t' then ['\\', 't']
  else if c = '\x08' then ['\\', 'b']
  else if c = '\x0c' then ['\\', 'f']
  else if c.toNat < 0x20 then
    ['\\', 'u', '0', '0'] ++ (if c.toNat < 0x10 then ['0'] else []) ++ Text.hexText c.toNat
  else [c]

/-- A part of a string. Only characters have a text. -/
def Piece.print : Piece → List Char
  | .char c => printChar c
  | .half _ => []
  | .stray => []

/-- A string in quotes. -/
def Quoted.print (q : Quoted) : List Char := '"' :: q.pieces.flatMap Piece.print ++ ['"']

/-- The text of a truth value. -/
def printBoolean : Bool → List Char
  | true => ['t', 'r', 'u', 'e']
  | false => ['f', 'a', 'l', 's', 'e']

/-! ### On one line -/

mutual

/-- The text of a value without blanks. -/
def Tree.print : Tree → List Char
  | .null => ['n', 'u', 'l', 'l']
  | .boolean b => printBoolean b
  | .number l => l.text
  | .string q => q.print
  | .array is => '[' :: is.print true
  | .object ms => '\x7b' :: ms.print true
  | .broken _ => []

/-- The text of items and the closing bracket. -/
def Items.print (first : Bool) : Items → List Char
  | .closed => [']']
  | .cut _ => []
  | .item v rest => (if first then [] else [',']) ++ v.print ++ rest.print false

/-- The text of members and the closing brace. -/
def Members.print (first : Bool) : Members → List Char
  | .closed => ['\x7d']
  | .cut _ => []
  | .member key v rest =>
    (if first then [] else [',']) ++ key.print ++ ':' :: v.print ++ rest.print false

end

/-! ### Laid out -/

/-- A new line at a depth of nesting, two blanks for each level. -/
def newLine (depth : Nat) : List Char := '\n' :: List.replicate (2 * depth) ' '

mutual

/-- The text of a value at a depth, each item and member on a line of its own. -/
def Tree.layOut (depth : Nat) : Tree → List Char
  | .null => ['n', 'u', 'l', 'l']
  | .boolean b => printBoolean b
  | .number l => l.text
  | .string q => q.print
  | .array .closed => ['[', ']']
  | .array is => '[' :: is.layOut depth true
  | .object .closed => ['\x7b', '\x7d']
  | .object ms => '\x7b' :: ms.layOut depth true
  | .broken _ => []

/-- The lines of items and the closing bracket. -/
def Items.layOut (depth : Nat) (first : Bool) : Items → List Char
  | .closed => newLine depth ++ [']']
  | .cut _ => []
  | .item v rest =>
    (if first then [] else [',']) ++ newLine (depth + 1) ++ v.layOut (depth + 1)
      ++ rest.layOut depth false

/-- The lines of members and the closing brace. -/
def Members.layOut (depth : Nat) (first : Bool) : Members → List Char
  | .closed => newLine depth ++ ['\x7d']
  | .cut _ => []
  | .member key v rest =>
    (if first then [] else [',']) ++ newLine (depth + 1) ++ key.print ++ ':' :: ' '
      :: v.layOut (depth + 1) ++ rest.layOut depth false

end

end PriceSignals.Json
