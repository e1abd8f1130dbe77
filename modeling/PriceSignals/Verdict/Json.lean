/-
Module: PriceSignals.Verdict.Json
Purpose: Votes and verdicts in JSON.
Main exports:
  Direction.ofJson, Direction.toJson, Hit.ofJson, Hit.toJson, Stance.ofJson, Stance.toJson,
  Verdict.ofJson, Verdict.toJson
-/
import PriceSignals.Json.Decode
import PriceSignals.Json.Printer
import PriceSignals.Verdict

namespace PriceSignals

open Json (Tree Members Items)

/-! ### Votes -/

namespace Direction

/-- The direction of a value. -/
def ofJson (v : Tree) : Except Json.Error Direction :=
  v.choice [("buy", .buy), ("sell", .sell)]

/-- A direction as a word. -/
def toJson (d : Direction) : Tree := Tree.ofString d.stance.word

end Direction

/-- A text as a string. -/
def stringOfJson (v : Tree) : Except Json.Error String := v.text.map String.ofList

/-- A vote some of whose fields are still missing. -/
structure PartialHit where
  direction : Option Direction := none
  strength : Option Float := none
  reason : Option String := none

namespace Hit

/-- The fields of a vote. -/
def slots : List (Data.Slot PartialHit Tree Json.Error) :=
  [{ name := "direction", fill := fun h v => do
      let x ← Direction.ofJson v
      return { h with direction := some x } },
    { name := "strength", fill := fun h v => do
      let x ← v.float
      return { h with strength := some x } },
    { name := "reason", fill := fun h v => do
      let x ← stringOfJson v
      return { h with reason := some x } }]

/-- The vote of a value. -/
def ofJson (v : Tree) : Except Json.Error Hit :=
  v.record "struct RuleHit" slots {} fun a h => do
    let direction ← a.require "direction" h.direction
    let strength ← a.require "strength" h.strength
    let reason ← a.require "reason" h.reason
    return { direction, strength, reason }

/-- A vote as an object. -/
def toJson (h : Hit) : Tree :=
  .object (Members.ofList
    [("direction", h.direction.toJson), ("strength", Tree.ofFloat h.strength),
      ("reason", Tree.ofString h.reason)])

end Hit

/-! ### Verdicts -/

namespace Stance

/-- The stance of a value. -/
def ofJson (v : Tree) : Except Json.Error Stance :=
  v.choice [("buy", .buy), ("sell", .sell), ("neutral", .neutral)]

/-- A stance as a word. -/
def toJson (s : Stance) : Tree := Tree.ofString s.word

end Stance

/-- A verdict some of whose fields are still missing. -/
structure PartialVerdict where
  stance : Option Stance := none
  strength : Option UInt8 := none
  reasons : Option (List String) := none

namespace Verdict

/-- The fields of a verdict. -/
def slots : List (Data.Slot PartialVerdict Tree Json.Error) :=
  [{ name := "type", fill := fun w v => do
      let x ← Stance.ofJson v
      return { w with stance := some x } },
    { name := "strength", fill := fun w v => do
      let n ← v.natural 256 "u8"
      return { w with strength := some (UInt8.ofNat n) } },
    { name := "reasons", fill := fun w v => do
      let x ← v.list stringOfJson
      return { w with reasons := some x } }]

/-- The verdict of a value. -/
def ofJson (v : Tree) : Except Json.Error Verdict :=
  v.record "struct TradingSignal" slots {} fun a w => do
    let stance ← a.require "type" w.stance
    let strength ← a.require "strength" w.strength
    let reasons ← a.require "reasons" w.reasons
    return { stance, strength, reasons }

/-- A verdict as an object. -/
def toJson (w : Verdict) : Tree :=
  .object (Members.ofList
    [("type", w.stance.toJson), ("strength", Tree.ofInt w.strength.toNat),
      ("reasons", .array (Items.ofList (w.reasons.map Tree.ofString)))])

end Verdict

end PriceSignals
