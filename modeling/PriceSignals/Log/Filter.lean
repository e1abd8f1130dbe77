/-
Module: PriceSignals.Log.Filter
Purpose: Which events are shown.
Main exports:
  Log.FieldTest, Log.Directive, Log.Filter, Log.Filter.Fault, Log.Filter.parse,
  Log.Filter.ofSetting?, Log.Filter.admits
-/
import PriceSignals.Decimal.Numeral
import PriceSignals.Log
import PriceSignals.Text.Character
import PriceSignals.Text.Pattern

namespace PriceSignals.Log

/-! ### Directives -/

/-- A field that a directive asks for, perhaps with a value: a number or a pattern. -/
structure FieldTest where
  name : List Char
  value : Option (List Char)
deriving Repr, DecidableEq

/-- What one part of a filter says: up to which rank events are shown. They come from sources
whose names start with the target, within a span, and with a field, as far as the directive asks
for these. -/
structure Directive where
  target : Option (List Char) := none
  span : Option (List Char) := none
  field : Option FieldTest := none
  limit : Nat
deriving Repr, DecidableEq

/-- A filter. Of the directives about an event the most specific one decides. -/
abbrev Filter := List Directive

/-- Why a text is no filter. -/
inductive Filter.Fault where
  /-- A part does not have the form of a directive. -/
  | malformed
  /-- A name begins or ends within a character. -/
  | split
deriving Repr, DecidableEq

/-! ### Limits -/

/-- The names of levels in filters with the ranks up to which they show events. -/
def limitNames : List (String × Nat) :=
  [("off", 0), ("error", 1), ("warn", 2), ("info", 3), ("debug", 4), ("trace", 5)]

/-- The rank that a number or a name in any case stands for. -/
def limit? (cs : List Char) : Option Nat :=
  let digits :=
    match cs with
    | '+' :: rest => rest
    | cs => cs
  match Digit.takeRow Digit.ofChar? digits with
  | (d :: row, []) => if Digit.value (d :: row) ≤ 5 then some (Digit.value (d :: row)) else none
  | _ => limitNames.lookup (String.ofList (Text.asciiLower cs))

/-! ### Reading a part -/

/-!
The blanks around a part do not count for its form, but its names are cut from the part as it
stands, by places that count from behind the blanks. So behind blanks a name is not what it looks
like, and it may even begin or end within a character.
-/

/-- A part that is being read: how many bytes of it have been read, and what is left of it without
the blanks around it. -/
structure Reading where
  whole : List Char
  place : Nat
  rest : List Char

namespace Reading

/-- The reading of a part from its start on. -/
def start (part : List Char) : Reading := { whole := part, place := 0, rest := Text.trim part }

/-- Goes on behind a mark, which takes one byte. -/
def behind (r : Reading) (rest : List Char) : Reading := { r with place := r.place + 1, rest }

/-- A name up to the next of some marks, with the mark and what follows it. -/
def name (r : Reading) (marks : List Char) : Except Filter.Fault (List Char × Char × Reading) :=
  let inName (c : Char) : Bool := !marks.contains c
  match r.rest.dropWhile inName with
  | [] => .error .malformed
  | mark :: rest =>
    let stop := r.place + Text.byteLength (r.rest.takeWhile inName)
    match Text.slice? r.place stop r.whole with
    | none => .error .split
    | some name => .ok (name, mark, { r with place := stop + 1, rest })

/-- The limit that the rest of a part gives. Without a level everything is shown. -/
def limit (r : Reading) : Except Filter.Fault Nat :=
  match Text.dropBytes? r.place r.whole with
  | none => .error .split
  | some [] => .ok Level.trace.rank
  | some level =>
    match limit? level with
    | some limit => .ok limit
    | none => .error .malformed

/-- The limit behind a span: there may be a level behind an equals sign. -/
def limitBehindSpan (r : Reading) : Except Filter.Fault Nat :=
  match r.rest with
  | [] => .ok Level.trace.rank
  | '=' :: rest => (r.behind rest).limit
  | _ => .error .malformed

end Reading

/-- The test of a field from its name and, behind an equals sign, its value. -/
def FieldTest.parse (text : List Char) : Except Filter.Fault FieldTest :=
  let inName (c : Char) : Bool := c ≠ '='
  let name := text.takeWhile inName
  match text.dropWhile inName with
  | [] => if name.isEmpty then .error .malformed else .ok { name, value := none }
  | _ :: rest =>
    let value := rest.takeWhile inName
    if (Decimal.Numeral.float? value).isSome || Text.Pattern.isWellFormed value then
      .ok { name, value := some value }
    else .error .malformed

/-- The directive about a span, from behind its opening bracket on. -/
def Directive.ofSpan (target : Option (List Char)) (r : Reading) :
    Except Filter.Fault Directive := do
  let (span, mark, r) ← r.name [']', '\x7b']
  if mark = ']' then
    return { target, span := some span, limit := ← r.limitBehindSpan }
  else
    let span := if span.isEmpty then none else some span
    let (text, _, r) ← r.name ['\x7d']
    let field ← FieldTest.parse text
    match r.rest with
    | ']' :: rest =>
      return { target, span, field := some field, limit := ← (r.behind rest).limitBehindSpan }
    | _ => throw .malformed

/-- Whether the name of a target may start with a character. -/
def startsTarget (c : Char) : Bool := Text.isAlphanumeric c || c = '-' || c = ':' || c = '_'

/-- One part of a filter: a level for all sources; or a target, a span in brackets with a field in
braces, or both, and then perhaps a level behind an equals sign. -/
def Directive.parse (part : List Char) : Except Filter.Fault Directive :=
  let r := Reading.start part
  match r.rest with
  | [] => .error .malformed
  | '[' :: rest => Directive.ofSpan none (r.behind rest)
  | c :: rest =>
    if ¬ startsTarget c then .error .malformed
    else if rest.contains '=' ∨ rest.contains '[' then do
      let (target, mark, r) ← r.name ['=', '[']
      if mark = '=' then return { target := some target, limit := ← r.limit }
      else Directive.ofSpan (some target) r
    else
      match limit? part with
      | some limit => .ok { limit }
      | none => .ok { target := some part, limit := Level.trace.rank }

/-! ### Filters -/

/-- The filter with parts between commas; empty parts do not count. Without any part, only errors
are shown. -/
def Filter.parse (cs : List Char) : Except Filter.Fault Filter := do
  let parts := (cs.splitOnP (· == ',')).filter fun part => !part.isEmpty
  let directives ← parts.mapM Directive.parse
  return if directives.isEmpty then [{ limit := Level.error.rank }] else directives

/-- The filter that shows events from `info` on. -/
def Filter.standard : Filter := [{ limit := Level.info.rank }]

/-- The filter of a setting that may be missing or make no sense. There is none if a name of it is
split. -/
def Filter.ofSetting? (setting : Option (List Char)) : Option Filter :=
  match setting.map Filter.parse with
  | some (.ok filter) => some filter
  | some (.error .split) => none
  | some (.error .malformed) => some standard
  | none => some standard

/-- Whether a directive is about an event of a source with a name. The events of the program are
within no span, and the values of their fields are not looked at. -/
def Directive.covers (d : Directive) (source : List Char) (e : Event) : Bool :=
  d.target.all (·.isPrefixOf source) && d.span.isNone
    && d.field.all fun f => f.value.isNone && e.mentions f.name

/-- How specific the target of a directive is. Any target is more specific than none. -/
def Directive.reach (d : Directive) : Nat :=
  match d.target with
  | none => 0
  | some target => target.length + 1

/-- Whether of two directives about an event the second one decides. The longer target comes
first, then asking for a field, then the later name of the field, then the later directive. -/
def Directive.yields (d other : Directive) : Bool :=
  if d.reach ≠ other.reach then d.reach < other.reach
  else
    match d.field, other.field with
    | none, _ => true
    | some _, none => false
    | some f, some g => !List.lex g.name f.name fun a b => a.toNat < b.toNat

/-- The directive that decides about an event of a source with a name. -/
def Filter.deciding? (filter : Filter) (source : List Char) (e : Event) : Option Directive :=
  (filter.filter fun d => d.covers source e).foldl
    (fun best d =>
      match best with
      | none => some d
      | some b => if b.yields d then some d else some b)
    none

/-- Whether an event is shown, given the name of its source. -/
def Filter.admits (filter : Filter) (name : Source → String) (e : Event) : Bool :=
  match filter.deciding? (name e.source).toList e with
  | some d => decide (e.level.rank ≤ d.limit)
  | none => false

end PriceSignals.Log
