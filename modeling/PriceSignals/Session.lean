/-
Module: PriceSignals.Session
Purpose: A history that grows and changes while it is looked at.
Main exports:
  Session, Session.Fault, Session.noBarText, Session.configure, Session.push, Session.swap,
  Session.truncate, Session.sort, Session.latest, Session.verdict
-/
import PriceSignals.Bar.Order
import PriceSignals.Settings.Toml
import PriceSignals.Verdict

namespace PriceSignals

/-- A history with the settings it is looked at with. -/
structure Session where
  settings : Settings := {}
  bars : List Bar := []

namespace Session

/-- Why a step is not taken. -/
inductive Fault where
  | settings (error : Settings.ReadError)
  /-- There is no bar at a place of a history of the given length. -/
  | noBar (length place : Nat)

/-- The text about a place without a bar. -/
def noBarText (length place : Nat) : String :=
  "index out of bounds: the len is " ++ toString length ++ " but the index is " ++ toString place

/-- Takes over the settings of a document. -/
def configure (s : Session) (document : List Char) : Except Fault Session := do
  let settings ← (Settings.read document).mapError .settings
  return { s with settings }

/-- Appends bars. -/
def push (s : Session) (bars : List Bar) : Session := { s with bars := s.bars ++ bars }

/-- Exchanges two bars. -/
def swap (s : Session) (i j : Nat) : Except Fault Session :=
  match s.bars[i]?, s.bars[j]? with
  | some a, some b => .ok { s with bars := (s.bars.set i b).set j a }
  | none, _ => .error (.noBar s.bars.length i)
  | _, none => .error (.noBar s.bars.length j)

/-- Keeps the first bars only. -/
def truncate (s : Session) (length : Nat) : Session := { s with bars := s.bars.take length }

/-- Sorts the bars by time. -/
def sort (s : Session) : Session := { s with bars := Bar.sort s.bars }

/-- Whether the bars are in order. -/
def inOrder (s : Session) : Bool := Bar.inOrder s.bars

/-- The annotated history. -/
def series (s : Session) : Except SettingsFault (List Annotated) :=
  (Composer.make s.settings.indicators).map fun c => c.annotate s.bars

/-- The last bar with its indicators. -/
def latest (s : Session) : Except SettingsFault (Option Annotated) :=
  s.series.map List.getLast?

/-- The verdict on the history. -/
def verdict (s : Session) : Except SettingsFault Verdict :=
  s.series.map (Verdict.of (Rule.standard s.settings.thresholds))

end Session

end PriceSignals
