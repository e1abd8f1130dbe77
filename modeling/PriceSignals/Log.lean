/-
Module: PriceSignals.Log
Purpose: Events of a run, and the formats in which they are shown.
Main exports:
  Log.Level, Log.Source, Log.Datum, Log.Event, Log.Event.mentions, Log.Format, Log.Format.ofSetting
-/
import PriceSignals.Text.Character

namespace PriceSignals.Log

/-! ### Events -/

/-- How important an event is. -/
inductive Level where
  | error
  | warn
  | info
  | debug
  | trace
deriving Repr, DecidableEq

/-- The rank of a level. The more important, the lower. -/
def Level.rank : Level → Nat
  | .error => 1
  | .warn => 2
  | .info => 3
  | .debug => 4
  | .trace => 5

/-- The name of a level. -/
def Level.name : Level → String
  | .error => "ERROR"
  | .warn => "WARN"
  | .info => "INFO"
  | .debug => "DEBUG"
  | .trace => "TRACE"

/-- The parts of the program that report events. -/
inductive Source where
  | command
  | composer
  | rules
deriving Repr, DecidableEq

/-- A detail of an event. -/
inductive Datum where
  | text (s : String)
  | count (n : Nat)
  | amount (x : Float)

/-- Something that happened. -/
structure Event where
  level : Level
  source : Source
  message : String
  details : List (String × Datum)

/-- Whether an event has a field with a name: its message or a detail. -/
def Event.mentions (e : Event) (name : List Char) : Bool :=
  ("message" :: e.details.map (·.1)).contains (String.ofList name)

/-! ### Formats -/

/-- How events are written. -/
inductive Format where
  | pretty
  | json
deriving Repr, DecidableEq

/-- The format of a setting that may be missing: JSON only if it says so, in letters of any
case. -/
def Format.ofSetting (setting : Option (List Char)) : Format :=
  match setting.map fun cs => Text.asciiLower (Text.trim cs) with
  | some ['j', 's', 'o', 'n'] => .json
  | _ => .pretty

end PriceSignals.Log
