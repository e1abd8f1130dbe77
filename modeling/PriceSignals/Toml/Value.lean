/-
Module: PriceSignals.Toml.Value
Purpose: TOML values, and how the statements of a document build up its tables.
Main exports:
  Origin, Value, Entries, Route, within, assign, openTable, openElement
-/

namespace PriceSignals.Toml

/-- A part of a key that has no dots. -/
abbrev Key := List Char

/-- How a table came about. This decides what may still be added to it. -/
inductive Origin where
  /-- It has a header of its own, or it is the document. -/
  | header
  /-- So far only headers of tables inside it have been met. -/
  | implied
  /-- It is named by the front parts of dotted keys. -/
  | dotted
  /-- It is written between braces and is complete. -/
  | inline
deriving Repr, DecidableEq

/-- A value. -/
inductive Value where
  | text (chars : List Char)
  | integer (n : Int)
  | float (x : Float)
  | boolean (b : Bool)
  /-- A date, a time of day, or both. Settings hold none, so it is not kept which. -/
  | moment
  | array (items : List Value)
  | table (origin : Origin) (entries : List (Key × Value))
  /-- The tables under a header with two brackets. Only the last one can still grow. -/
  | tables (earlier : List (List (Key × Value))) (last : List (Key × Value))

/-- The entries of a table in the order of the document. -/
abbrev Entries := List (Key × Value)

/-- Puts a new value in the place of the one that a key has. -/
def Entries.put (entries : Entries) (key : Key) (v : Value) : Entries :=
  entries.map fun e => if e.1 = key then (key, v) else e

/-- The entries without the one of a key. -/
def Entries.without (entries : Entries) (key : Key) : Entries :=
  entries.filter fun e => e.1 ≠ key

/-! ### Ways through tables -/

/-- What names the tables on the way to a place. -/
inductive Route where
  /-- The header of a table. -/
  | header
  /-- A dotted key. -/
  | key
deriving Repr, DecidableEq

/-- How a table comes about that is met on a route for the first time. -/
def Route.fresh : Route → Origin
  | .header => .implied
  | .key => .dotted

/-- Whether a route may lead through a table. Dotted keys lead into no table that has a header
of its own. -/
def Route.enters : Route → Origin → Bool
  | _, .inline => false
  | .header, _ => true
  | .key, .header => false
  | .key, _ => true

/-- Changes the table at the end of a path. Tables that are missing on the way are made; of
several tables under one key, the way goes through the last. -/
def within (route : Route) (change : Origin → Entries → Option Entries) :
    List Key → Origin → Entries → Option Entries
  | [], origin, entries => change origin entries
  | key :: path, _, entries =>
    match entries.lookup key with
    | none => do
      let inner ← within route change path route.fresh []
      return entries ++ [(key, .table route.fresh inner)]
    | some (.table origin inner) =>
      if route.enters origin then do
        let inner ← within route change path origin inner
        return entries.put key (.table origin inner)
      else none
    | some (.tables earlier last) => do
      let last ← within route change path .header last
      return entries.put key (.tables earlier last)
    | some _ => none

/-! ### Statements -/

/-- Gives a value to a key, which has all its parts but the last one in `path`. A key can be
given a value once. A dotted key ends in a table of dotted keys only. -/
def assign (path : List Key) (key : Key) (v : Value) : Origin → Entries → Option Entries :=
  within .key (fun origin entries =>
    if origin = .dotted ↔ path = [] then none
    else if (entries.lookup key).isSome then none
    else some (entries ++ [(key, v)])) path

/-- Opens the table of a header. It must not have been opened before; it may have been implied,
and then comes behind its neighbours. -/
def openTable (path : List Key) (key : Key) : Origin → Entries → Option Entries :=
  within .header (fun _ entries =>
    match entries.lookup key with
    | none => some (entries ++ [(key, .table .header [])])
    | some (.table .implied inner) => some (entries.without key ++ [(key, .table .header inner)])
    | some _ => none) path

/-- Opens one more table under a header with two brackets. -/
def openElement (path : List Key) (key : Key) : Origin → Entries → Option Entries :=
  within .header (fun _ entries =>
    match entries.lookup key with
    | none => some (entries ++ [(key, .tables [] [])])
    | some (.tables earlier last) => some (entries.put key (.tables (earlier ++ [last]) []))
    | some _ => none) path

end PriceSignals.Toml
