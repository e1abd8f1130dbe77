/-
Module: PriceSignals.Log.Line
Purpose: The lines in which events are written.
Main exports:
  Log.Event.fields, Log.Event.toJson, Log.Event.plainText, Log.Format.line
-/
import PriceSignals.Json.Printer
import PriceSignals.Log

namespace PriceSignals.Log

open Json (Tree Members)

/-- A detail as a value. -/
def Datum.toJson : Datum → Tree
  | text s => Tree.ofString s
  | count n => Tree.ofInt n
  | amount x => Tree.ofFloat x

/-- The message of an event and its details as an object. -/
def Event.fields (e : Event) : Tree :=
  .object (Members.ofList
    (("message", Tree.ofString e.message) :: e.details.map fun (name, d) => (name, d.toJson)))

/-- An event as an object, given the name of its source. -/
def Event.toJson (name : Source → String) (e : Event) : Tree :=
  .object (Members.ofList
    [("level", Tree.ofString e.level.name), ("fields", e.fields),
      ("target", Tree.ofString (name e.source))])

/-- A detail as text. -/
def Datum.plainText : Datum → List Char
  | text s => s.toList
  | count n => decimalText n
  | amount x => Decimal.displayText x

/-- An event as text: its level, its message, and its details. -/
def Event.plainText (e : Event) : List Char :=
  e.level.name.toList ++ ' ' :: e.message.toList
    ++ e.details.flatMap fun (name, d) => ' ' :: name.toList ++ '=' :: d.plainText

/-- The line of an event in a format. -/
def Format.line (format : Format) (name : Source → String) (e : Event) : List Char :=
  match format with
  | .json => (e.toJson name).print
  | .pretty => e.plainText

end PriceSignals.Log
