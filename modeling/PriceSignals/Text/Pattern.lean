/-
Module: PriceSignals.Text.Pattern
Purpose: The form of the patterns that filters may hold. A pattern is only told from other texts
  here; nothing is matched against it.
Main exports:
  Pattern.isWellFormed
-/
import PriceSignals.Text.Alphanumeric
import PriceSignals.Text.Character

namespace PriceSignals.Text.Pattern

/-! ### Escapes -/

/-- What stands behind a backslash. -/
inductive Escape where
  /-- A character. -/
  | literal (c : Char)
  /-- The start or the end of a text. -/
  | edge
deriving Repr, DecidableEq

/-- The control characters that have a letter. -/
def controls : List (Char × Char) :=
  [('a', '\x07'), ('f', '\x0c'), ('t', '\t'), ('n', '\n'), ('r', '\r'), ('v', '\x0b')]

/-- Whether a backslash may stand before a character just to take its meaning from it: that is
any ASCII character but letters, digits, and the angle brackets. -/
def isEscapable (c : Char) : Bool := c.toNat < 0x80 && !c.isAlphanum && c != '<' && c != '>'

/-- An escape, from behind its backslash, and what follows it. There are no escapes for classes
of characters and for the borders of words. -/
def escape? : List Char → Option (Escape × List Char)
  | [] => none
  | c :: rest =>
    if c = 'x' then (coded? 2 rest).map fun c => (.literal c, rest.drop 2)
    else if c = 'u' then (coded? 4 rest).map fun c => (.literal c, rest.drop 4)
    else if c = 'U' then (coded? 8 rest).map fun c => (.literal c, rest.drop 8)
    else if c = 'A' ∨ c = 'z' then some (.edge, rest)
    else if isEscapable c then some (.literal c, rest)
    else (controls.lookup c).map fun c => (.literal c, rest)

/-! ### Classes -/

/-- The classes that have a name. -/
def classNames : List String :=
  ["alnum", "alpha", "ascii", "blank", "cntrl", "digit", "graph", "lower", "print", "punct",
    "space", "upper", "word", "xdigit"]

/-- What follows a named class, from behind its opening bracket. -/
def namedClass? (cs : List Char) : Option (List Char) :=
  match cs with
  | ':' :: rest =>
    let rest :=
      match rest with
      | '^' :: rest => rest
      | rest => rest
    match rest.dropWhile (· ≠ ':') with
    | ':' :: ']' :: tail =>
      if classNames.contains (String.ofList (rest.takeWhile (· ≠ ':'))) then some tail else none
    | _ => none
  | _ => none

/-- The items of a class from its opening bracket on. A circumflex in front is none of them. Dashes
in front stand for themselves, and so does a closing bracket that is the very first item. -/
def classItems (cs : List Char) : List Char :=
  let cs :=
    match cs with
    | '^' :: rest => rest
    | cs => cs
  match cs with
  | '-' :: rest => rest.dropWhile (· = '-')
  | ']' :: rest => rest
  | cs => cs

/-- One character within a class, or an edge, which has no place there. -/
def classChar? : List Char → Option (Escape × List Char)
  | [] => none
  | c :: rest => if c = '\\' then escape? rest else some (.literal c, rest)

/-- An item that is no class: a character or a range of characters. -/
def classRange? (cs : List Char) : Option (List Char) :=
  match classChar? cs with
  | some (.literal first, rest) =>
    match rest with
    | '-' :: tail =>
      if tail.head? = some ']' ∨ tail.head? = some '-' then some rest
      else
        match classChar? tail with
        | some (.literal last, tail) => if first ≤ last then some tail else none
        | _ => none
    | _ => some rest
  | _ => none

/-- What follows a class, from one of its items on. `depth` more classes are open around it.
`fuel` bounds the recursion; every item uses up one unit of it. -/
def classEnd? : Nat → Nat → List Char → Option (List Char)
  | 0, _, _ => none
  | fuel + 1, depth, cs =>
    match cs with
    | [] => none
    | '[' :: rest =>
      match namedClass? rest with
      | some rest => classEnd? fuel depth rest
      | none => classEnd? fuel (depth + 1) (classItems rest)
    | ']' :: rest => if depth = 0 then some rest else classEnd? fuel (depth - 1) rest
    | '&' :: '&' :: rest => classEnd? fuel depth rest
    | '-' :: '-' :: rest => classEnd? fuel depth rest
    | '~' :: '~' :: rest => classEnd? fuel depth rest
    | cs => (classRange? cs).bind (classEnd? fuel depth)

/-! ### Groups -/

/-- What an opening parenthesis begins. -/
inductive Opening where
  /-- A group, which may have a name. -/
  | group (name : Option (List Char))
  /-- A change of the flags for what follows, which is closed already. -/
  | flags
deriving Repr, DecidableEq

/-- Whether a text can be the name of a group. -/
def isGroupName (name : List Char) : Bool :=
  match name with
  | [] => false
  | c :: rest =>
    (c == '_' || (isAlphanumeric c && !c.isDigit))
      && rest.all fun c => isAlphanumeric c || c == '_' || c == '.' || c == '[' || c == ']'

/-- A group with a name, from behind its opening angle bracket. -/
def named? (cs : List Char) : Option (Opening × List Char) :=
  let name := cs.takeWhile (· ≠ '>')
  match cs.dropWhile (· ≠ '>') with
  | _ :: rest => if isGroupName name then some (.group (some name), rest) else none
  | [] => none

/-- The flags. -/
def flagLetters : List Char := ['m', 's', 'U', 'u', 'R', 'x']

/-- Whether a text sets and, behind a dash, clears flags. To ignore the case of letters can be
switched off only. -/
def areFlags (cs : List Char) : Bool :=
  let on := cs.takeWhile (· ≠ '-')
  let off := cs.drop on.length
  on.all flagLetters.contains
    && off.all ('-' :: 'i' :: flagLetters).contains
    && decide cs.Nodup && cs.getLast? != some '-'

/-- A group with flags of its own, or a change of the flags, from behind the question mark. -/
def flagged? (cs : List Char) : Option (Opening × List Char) :=
  let inFlags (c : Char) : Bool := c ≠ ':' && c ≠ ')'
  let flags := cs.takeWhile inFlags
  match cs.dropWhile inFlags with
  | ':' :: rest => if areFlags flags then some (.group none, rest) else none
  | _ :: rest => if areFlags flags && !flags.isEmpty then some (.flags, rest) else none
  | [] => none

/-- What an opening parenthesis begins, and what follows. -/
def opening? : List Char → Option (Opening × List Char)
  | '?' :: 'P' :: '<' :: rest => named? rest
  | '?' :: '<' :: rest => named? rest
  | '?' :: rest => flagged? rest
  | rest => some (.group none, rest)

/-! ### Patterns -/

/-- Whether a pattern goes on well. `depth` groups are open, the groups so far have the names
`names`, and `repeatable` tells whether there is something that a repetition can refer to. `fuel`
bounds the recursion; every symbol uses up one unit of it. -/
def goesOn : Nat → Nat → List (List Char) → Bool → List Char → Bool
  | 0, _, _, _, _ => false
  | fuel + 1, depth, names, repeatable, cs =>
    match cs with
    | [] => depth = 0
    | '(' :: rest =>
      match opening? rest with
      | none => false
      | some (.flags, rest) => goesOn fuel depth names false rest
      | some (.group none, rest) => goesOn fuel (depth + 1) names false rest
      | some (.group (some name), rest) =>
        !names.contains name && goesOn fuel (depth + 1) (name :: names) false rest
    | ')' :: rest => depth ≠ 0 && goesOn fuel (depth - 1) names true rest
    | '|' :: rest => goesOn fuel depth names false rest
    | '[' :: rest =>
      match classEnd? (rest.length + 1) 0 (classItems rest) with
      | some rest => goesOn fuel depth names true rest
      | none => false
    | '\\' :: rest =>
      match escape? rest with
      | some (_, rest) => goesOn fuel depth names true rest
      | none => false
    | c :: rest =>
      if c = '?' ∨ c = '*' ∨ c = '+' then repeatable && goesOn fuel depth names true rest
      else if c = '\x7b' then false
      else goesOn fuel depth names true rest

/-- Whether a text is a pattern. A pattern has no counted repetitions. -/
def isWellFormed (cs : List Char) : Bool := goesOn (cs.length + 1) 0 [] false cs

end PriceSignals.Text.Pattern
