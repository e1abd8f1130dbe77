/-
Module: PriceSignals.Json.Tree
Purpose: JSON documents as far as a text spells one.
Main exports:
  Cut, Piece, Quoted, Tree, Items, Members
-/
import PriceSignals.Decimal.Literal

namespace PriceSignals.Json

/-!
A text that is not JSON still has a tree: it ends where the text stops making sense. Whoever
goes through a tree from its start therefore meets the first problem of the text in its place,
after whatever else is to be said about what stands before it.
-/

/-- Why a tree ends early. -/
inductive Cut where
  /-- What follows is not JSON. -/
  | malformed
  /-- The text ends. -/
  | truncated
  /-- The text ends within `null`, `true` or `false`. -/
  | truncatedWord
  /-- The text ends within a number. -/
  | truncatedNumber
deriving Repr, DecidableEq

/-- One part of a string. -/
inductive Piece where
  | char (c : Char)
  /-- Half of a character that is written as two escapes: a code from `0xD800` to `0xDFFF`. -/
  | half (code : Nat)
  /-- A byte that belongs to no character. -/
  | stray
deriving Repr, DecidableEq

/-- A string up to its closing quote, or up to where it is cut. -/
structure Quoted where
  pieces : List Piece
  cut : Option Cut
deriving Repr, DecidableEq

mutual

/-- A value. -/
inductive Tree where
  | null
  | boolean (b : Bool)
  | number (l : Decimal.Literal)
  | string (q : Quoted)
  | array (items : Items)
  | object (members : Members)
  /-- No value stands here. -/
  | broken (c : Cut)

/-- The values of an array. Behind a comma there always is an item. -/
inductive Items where
  | closed
  | cut (c : Cut)
  | item (value : Tree) (rest : Items)

/-- The members of an object. Behind a comma there always is a member. A key is a string, or
broken where no string stands. -/
inductive Members where
  | closed
  | cut (c : Cut)
  | member (key value : Tree) (rest : Members)

end

/-- An array of some values. -/
def Items.ofList : List Tree → Items
  | [] => .closed
  | v :: rest => .item v (ofList rest)

/-- A string of some characters. -/
def Quoted.ofChars (cs : List Char) : Quoted := { pieces := cs.map .char, cut := none }

/-- A string as a value. -/
def Tree.ofString (s : String) : Tree := .string (Quoted.ofChars s.toList)

/-- An object with some names and values. -/
def Members.ofList : List (String × Tree) → Members
  | [] => .closed
  | (name, v) :: rest => .member (Tree.ofString name) v (ofList rest)

end PriceSignals.Json
