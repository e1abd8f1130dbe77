/-
Module: PriceSignals.Verdict
Purpose: One verdict from the votes of all rules.
Main exports:
  Stance, Verdict, Verdict.isActionable, score, Verdict.ofHits, firedOn, Verdict.of
-/
import PriceSignals.Rule
import PriceSignals.Series

namespace PriceSignals

/-- What a verdict advises. -/
inductive Stance where
  | buy
  | sell
  | neutral
deriving Repr, DecidableEq

/-- The stance that follows a direction. -/
def Direction.stance : Direction → Stance
  | .buy => .buy
  | .sell => .sell

/-- The word for a stance in output. -/
def Stance.word : Stance → String
  | .buy => "buy"
  | .sell => "sell"
  | .neutral => "neutral"

/-- Advice with a strength, from 0 to 100 where it comes from votes, and the reasons for it. -/
structure Verdict where
  stance : Stance
  strength : UInt8
  reasons : List String
deriving DecidableEq

/-- A strength as a whole number from 0 to 100: how many of 0.5, 1.5, …, 99.5 it reaches. So it
is rounded with halves going up, what is out of range counts as its end, and NaN as 0. -/
def score (strength : Float) : UInt8 :=
  UInt8.ofNat ((List.range 100).countP fun n => Float.ofNat n + 0.5 ≤ strength)

namespace Verdict

/-- Whether the verdict advises to trade. -/
def isActionable (v : Verdict) : Bool := v.stance != .neutral

/-- The verdict that advises nothing. -/
def neutral (strength : UInt8) (reason : String) : Verdict :=
  { stance := .neutral, strength, reasons := [reason] }

/-- The votes for one direction. -/
def side (hits : List Hit) (d : Direction) : List Hit := hits.filter fun h => h.direction == d

/-- The weight of one direction: its strengths over the number of all votes, so that votes
against it weaken it. -/
def weight (hits : List Hit) (d : Direction) : Float :=
  Series.total ((side hits d).map (·.strength)) / Float.ofNat hits.length

/-- The verdict for the direction that has won. -/
def decided (hits : List Hit) (d : Direction) : Verdict :=
  { stance := d.stance
    strength := score (weight hits d)
    reasons := (side hits d).map (·.reason) }

/-- The verdict from some votes. -/
def ofHits (hits : List Hit) : Verdict :=
  if hits.isEmpty then neutral 0 "No clear signals"
  else if weight hits .sell < weight hits .buy then decided hits .buy
  else if weight hits .buy < weight hits .sell then decided hits .sell
  else neutral 50 "Mixed signals"

end Verdict

/-- The rules that fire on a bar, with their votes, in the order of the rules. -/
def firedOn (rules : List Rule) (current previous : Annotated) : List (String × Hit) :=
  rules.filterMap fun r => (r.judge current previous).map (r.name, ·)

/-- The two latest bars of a history, the newer one first. -/
def latestPair? (series : List Annotated) : Option (Annotated × Annotated) :=
  match series.reverse with
  | current :: previous :: _ => some (current, previous)
  | _ => none

/-- The verdict of some rules on the end of a history. -/
def Verdict.of (rules : List Rule) (series : List Annotated) : Verdict :=
  match latestPair? series with
  | none => .neutral 0 "Insufficient data"
  | some (current, previous) => .ofHits ((firedOn rules current previous).map (·.2))

end PriceSignals
