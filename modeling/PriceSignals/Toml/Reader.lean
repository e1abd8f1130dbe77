/-
Module: PriceSignals.Toml.Reader
Purpose: The table of a TOML document.
Main exports:
  value, Builder, document
-/
import PriceSignals.Toml.Scalar

namespace PriceSignals.Toml

/-- How many parts a key may have. -/
def maxParts : Nat := 79

/-- How deep arrays and tables in braces may be nested. -/
def maxDepth : Nat := 79

/-! ### Values -/

mutual

/-- A value, and what follows it; other values may be nested in it at most `room` deep. `fuel`
bounds the recursion; every character uses up at most two units of it. -/
def value : Nat → Nat → List Char → Option (Value × List Char)
  | 0, _, _ => none
  | fuel + 1, room, cs =>
    match cs with
    | [] => none
    | c :: rest =>
      if c = '"' ∨ c = '\'' then (text cs).map fun (chars, rest) => (.text chars, rest)
      else if c = '[' then
        match room with
        | 0 => none
        | room + 1 => (items fuel room rest).map fun (vs, rest) => (.array vs, rest)
      else if c = '\x7b' then
        match room, skipBlanks rest with
        | 0, _ => none
        | _ + 1, '\x7d' :: rest => some (.table .inline [], rest)
        | room + 1, _ =>
          (pairs fuel room [] rest).map fun (entries, rest) => (.table .inline entries, rest)
      else scalar cs

/-- The items of an array up to its bracket. The last one may have a comma behind it. -/
def items : Nat → Nat → List Char → Option (List Value × List Char)
  | 0, _, _ => none
  | fuel + 1, room, cs => do
    match ← skipLoose false cs with
    | ']' :: rest => return ([], rest)
    | cs =>
      let (v, rest) ← value fuel room cs
      match ← skipLoose false rest with
      | ',' :: rest =>
        let (vs, rest) ← items fuel room rest
        return (v :: vs, rest)
      | ']' :: rest => return ([v], rest)
      | _ => none

/-- The entries of a table in braces from one entry on, added to those before it. -/
def pairs : Nat → Nat → Entries → List Char → Option (Entries × List Char)
  | 0, _, _, _ => none
  | fuel + 1, room, entries, cs => do
    let ((path, key), rest) ← keyPath maxParts cs
    let rest ← after '=' rest
    let (v, rest) ← value fuel room (skipBlanks rest)
    let entries ← assign path key v .inline entries
    match skipBlanks rest with
    | ',' :: rest => pairs fuel room entries rest
    | '\x7d' :: rest => return (entries, rest)
    | _ => none

end

/-! ### Documents -/

/-- A document as far as it has been read: its entries, and the table that the last header has
opened. -/
structure Builder where
  entries : Entries := []
  current : List Key := []

/-- Reads statement after statement, one a line. -/
def statements : Nat → Builder → List Char → Option Builder
  | 0, _, _ => none
  | fuel + 1, b, cs => do
    match skipBlanks cs with
    | [] => return b
    | '\n' :: rest => statements fuel b rest
    | '#' :: rest =>
      let rest ← lineEnd ('#' :: rest)
      statements fuel b rest
    | '[' :: '[' :: rest =>
      let ((path, key), rest) ← keyPath maxParts rest
      let rest ← after ']' rest
      let rest ← after ']' rest
      let rest ← lineEnd rest
      let entries ← openElement path key .header b.entries
      statements fuel { entries, current := path ++ [key] } rest
    | '[' :: rest =>
      let ((path, key), rest) ← keyPath maxParts rest
      let rest ← after ']' rest
      let rest ← lineEnd rest
      let entries ← openTable path key .header b.entries
      statements fuel { entries, current := path ++ [key] } rest
    | cs =>
      let ((path, key), rest) ← keyPath maxParts cs
      let rest ← after '=' rest
      let (v, rest) ← value (2 * rest.length + 2) maxDepth (skipBlanks rest)
      let rest ← lineEnd rest
      let entries ← within .header (assign path key v) b.current .header b.entries
      statements fuel { b with entries } rest

/-- The table of a document, unless its text is not TOML. A byte order mark may stand in
front. -/
def document (cs : List Char) : Option Value :=
  let cs :=
    match cs with
    | '\ufeff' :: rest => rest
    | cs => cs
  let lines := unifyLineEnds cs
  (statements (lines.length + 1) {} lines).map fun b => .table .header b.entries

end PriceSignals.Toml
