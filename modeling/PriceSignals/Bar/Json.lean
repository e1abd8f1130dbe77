/-
Module: PriceSignals.Bar.Json
Purpose: Bars in JSON.
Main exports:
  BarTime.ofJson, BarTime.toJson, Bar.slots, Bar.ofJson, Bar.listOfJson, Bar.members, Bar.toJson
-/
import PriceSignals.Bar.Slots
import PriceSignals.Json.Decode
import PriceSignals.Json.Printer

namespace PriceSignals

open Json (Tree Members)

namespace BarTime

/-- The time of a number or text. A number is a count of seconds if it is whole and fits a
signed word of 64 bits. `room` is how deep the value may be nested. -/
def ofJson (room : Nat) (v : Tree) : Except Json.Error BarTime :=
  match v.readFault? room with
  | some e => .error e
  | none =>
    let other : Except Json.Error BarTime := .error (.data (.noVariant "BarTime"))
    match v with
    | .number l =>
      match Json.Numeric.ofLiteral? l with
      | some (.natural n) =>
        .ok
          (if n ≤ Int64.maxValue.toInt then .unix (Int64.ofNat n)
          else .fractional (Float.ofNat n))
      | some (.negative n) => .ok (.unix (Int64.ofInt (-(n : Int))))
      | some (.float x) => .ok (.fractional x)
      | none => other
    | .string q => do
      let cs ← q.read
      return .text (String.ofList cs)
    | _ => other

/-- A time as a number or text. -/
def toJson : BarTime → Tree
  | unix secs => Tree.ofInt secs.toInt
  | fractional secs => Tree.ofFloat secs
  | text chars => Tree.ofString chars

end BarTime

namespace Bar

/-- The fields of a bar in an object. `room` is how deep the time may be nested. -/
def slots (room : Nat) : List (Data.Slot PartialBar Tree Json.Error) :=
  PartialBar.slots (BarTime.ofJson room) Tree.float (Tree.optional Tree.float)

/-- The bar of a value that is nested in `depth` arrays and objects. -/
def ofJson (depth : Nat) (v : Tree) : Except Json.Error Bar :=
  v.record "struct PriceBar" (slots (Json.maxDepth - depth - 1)) {} PartialBar.finish

/-- The bars of a document. -/
def listOfJson (v : Tree) : Except Json.Error (List Bar) := v.list (ofJson 1)

/-- The members of a bar. An unknown volume is left out. -/
def members (b : Bar) : List (String × Tree) :=
  [("time", b.time.toJson), ("open", Tree.ofFloat b.opening), ("high", Tree.ofFloat b.high),
    ("low", Tree.ofFloat b.low), ("close", Tree.ofFloat b.close)]
  ++ (match b.volume with
      | some x => [("volume", Tree.ofFloat x)]
      | none => [])

/-- A bar as an object. -/
def toJson (b : Bar) : Tree := .object (Members.ofList b.members)

end Bar

end PriceSignals
