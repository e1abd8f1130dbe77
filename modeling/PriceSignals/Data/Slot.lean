/-
Module: PriceSignals.Data.Slot
Purpose: The fields of a record, each with the way in which it is filled from data.
Main exports:
  Slot, Slot.find?, Absence, Absence.fault
-/
import PriceSignals.Data.Fault

namespace PriceSignals.Data

/-- A field of a record `σ` that is filled from data `δ`. -/
structure Slot (σ δ ε : Type) where
  name : String
  fill : σ → δ → Except ε σ

/-- The field with a name. -/
def Slot.find? {σ δ ε : Type} (slots : List (Slot σ δ ε)) (name : String) : Option (Slot σ δ ε) :=
  slots.find? fun slot => slot.name == name

/-- How the fields of a record were given, which decides what is said about one that is
missing. -/
inductive Absence where
  /-- The fields were given by name. -/
  | named
  /-- The first `count` fields were given in order, for a record described by `expected`. -/
  | positional (count : Nat) (expected : String)

/-- The fault of a missing field. -/
def Absence.fault (a : Absence) (name : String) : Fault :=
  match a with
  | .named => .missingField name
  | .positional count expected => .invalidLength count expected

/-- The value of a field that has to be there. -/
def Absence.require {α : Type} (a : Absence) (name : String) : Option α → Except Fault α
  | some value => .ok value
  | none => .error (a.fault name)

end PriceSignals.Data
