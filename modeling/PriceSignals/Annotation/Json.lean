/-
Module: PriceSignals.Annotation.Json
Purpose: Annotated bars and the values of their indicators in JSON.
Main exports:
  Bands.ofJson, Bands.toJson, Convergence.ofJson, Convergence.toJson, Annotated.ofJson,
  Annotated.toJson, Annotated.listToJson
-/
import PriceSignals.Annotation
import PriceSignals.Bar.Json

namespace PriceSignals

open Json (Tree Members Items)

/-- A record of three numbers, of which some are still missing. -/
structure PartialTriple where
  first : Option Float := none
  second : Option Float := none
  third : Option Float := none

/-- The three fields, under their names. -/
def PartialTriple.slots (first second third : String) :
    List (Data.Slot PartialTriple Tree Json.Error) :=
  [{ name := first, fill := fun t v => do
      let x ← v.float
      return { t with first := some x } },
    { name := second, fill := fun t v => do
      let x ← v.float
      return { t with second := some x } },
    { name := third, fill := fun t v => do
      let x ← v.float
      return { t with third := some x } }]

namespace Indicator

/-- The bands of a value. -/
def Bands.ofJson (v : Tree) : Except Json.Error Bands :=
  v.record "struct BollingerBands" (PartialTriple.slots "upper" "middle" "lower") {} fun a t => do
    let upper ← a.require "upper" t.first
    let middle ← a.require "middle" t.second
    let lower ← a.require "lower" t.third
    return { upper, middle, lower }

/-- Bands as an object. -/
def Bands.toJson (b : Bands) : Tree :=
  .object (Members.ofList
    [("upper", Tree.ofFloat b.upper), ("middle", Tree.ofFloat b.middle),
      ("lower", Tree.ofFloat b.lower)])

/-- The convergence of a value. -/
def Convergence.ofJson (v : Tree) : Except Json.Error Convergence :=
  v.record "struct MacdValues" (PartialTriple.slots "macd" "signal" "histogram") {} fun a t => do
    let line ← a.require "macd" t.first
    let signal ← a.require "signal" t.second
    let histogram ← a.require "histogram" t.third
    return { line, signal, histogram }

/-- A convergence as an object. -/
def Convergence.toJson (c : Convergence) : Tree :=
  .object (Members.ofList
    [("macd", Tree.ofFloat c.line), ("signal", Tree.ofFloat c.signal),
      ("histogram", Tree.ofFloat c.histogram)])

end Indicator

namespace Time.Instant

/-- The instant of a text. -/
def ofJson (v : Tree) : Except Json.Error Instant :=
  match v with
  | .string q => do
    let cs ← q.read
    (readLenient cs).mapError fun fault => .data (.time fault)
  | _ => v.mismatch "an RFC 3339 formatted date and time string"

/-- An instant as a text. -/
def toJson (t : Instant) : Tree := Tree.ofString (t.text .zulu)

end Time.Instant

/-- An annotated bar whose fields have been met in part. The fields of the bar itself stand
among the others and are kept until the end. -/
structure PartialAnnotated where
  date : Option Time.Instant := none
  sma : Option Float := none
  emaFast : Option Float := none
  emaSlow : Option Float := none
  rsi : Option Float := none
  bollinger : Option Indicator.Bands := none
  macd : Option Indicator.Convergence := none
  /-- The other members, the latest first. -/
  others : List (List Char × Tree) := []

namespace PartialAnnotated

/-- The fields that are derived. Each may be missing or null. -/
def slots : List (Data.Slot PartialAnnotated Tree Json.Error) :=
  [{ name := "date", fill := fun a v => do
      let x ← v.optional Time.Instant.ofJson
      return { a with date := x } },
    { name := "sma20", fill := fun a v => do
      let x ← v.optional Tree.float
      return { a with sma := x } },
    { name := "ema12", fill := fun a v => do
      let x ← v.optional Tree.float
      return { a with emaFast := x } },
    { name := "ema26", fill := fun a v => do
      let x ← v.optional Tree.float
      return { a with emaSlow := x } },
    { name := "rsi14", fill := fun a v => do
      let x ← v.optional Tree.float
      return { a with rsi := x } },
    { name := "bollinger", fill := fun a v => do
      let x ← v.optional Indicator.Bands.ofJson
      return { a with bollinger := x } },
    { name := "macd", fill := fun a v => do
      let x ← v.optional Indicator.Convergence.ofJson
      return { a with macd := x } }]

/-- Keeps a member that is not derived, once it has been read whole. -/
def keep (room : Nat) (a : PartialAnnotated) (name : List Char) (v : Tree) :
    Except Json.Error PartialAnnotated :=
  match v.readFault? room with
  | some e => .error e
  | none => .ok { a with others := (name, v) :: a.others }

/-- The members that were kept, in their order. -/
def kept (a : PartialAnnotated) : Members :=
  a.others.foldl
    (fun rest (name, v) => .member (.string (Json.Quoted.ofChars name)) v rest) .closed

end PartialAnnotated

namespace Annotated

/-- The annotated bar of an object. The fields of the bar and the derived fields stand side by
side; the derived ones are read first. -/
def ofJson (v : Tree) : Except Json.Error Annotated :=
  match v with
  | .object ms => do
    let room := Json.maxDepth - 1
    let a ← ms.fill PartialAnnotated.slots (PartialAnnotated.keep room) [] {}
    let b ← a.kept.fill (Bar.slots room) Json.skipMember [] {}
    let bar ← (b.finish .named).mapError Json.Error.data
    return { bar, date := a.date, sma := a.sma, emaFast := a.emaFast, emaSlow := a.emaSlow
             rsi := a.rsi, bollinger := a.bollinger, macd := a.macd }
  | _ => v.mismatch "struct AnnotatedBar"

/-- A member that is left out where its value is absent. -/
def presentMember {α : Type} (name : String) (toTree : α → Tree) : Option α → List (String × Tree)
  | some a => [(name, toTree a)]
  | none => []

/-- An annotated bar as an object; what is absent is left out. -/
def toJson (a : Annotated) : Tree :=
  .object (Members.ofList
    (a.bar.members
      ++ presentMember "date" Time.Instant.toJson a.date
      ++ presentMember "sma20" Tree.ofFloat a.sma
      ++ presentMember "ema12" Tree.ofFloat a.emaFast
      ++ presentMember "ema26" Tree.ofFloat a.emaSlow
      ++ presentMember "rsi14" Tree.ofFloat a.rsi
      ++ presentMember "bollinger" Indicator.Bands.toJson a.bollinger
      ++ presentMember "macd" Indicator.Convergence.toJson a.macd))

/-- A series as an array. -/
def listToJson (series : List Annotated) : Tree := .array (Items.ofList (series.map toJson))

end Annotated

end PriceSignals
