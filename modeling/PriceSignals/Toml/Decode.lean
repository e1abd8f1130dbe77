/-
Module: PriceSignals.Toml.Decode
Purpose: Values of given types from TOML values.
Main exports:
  Error, Value.found, Value.mismatch, Value.readFloat, Value.readNatural,
  Value.readRecord, decode
-/
import PriceSignals.Data.Slot
import PriceSignals.Decimal.Style
import PriceSignals.Toml.Reader

namespace PriceSignals.Toml

/-- Why a text is not a value of a type. -/
inductive Error where
  /-- The text is not TOML. -/
  | malformed
  /-- The text is TOML, but not of the type. -/
  | data (fault : Data.Fault)
deriving Repr, DecidableEq

namespace Value

/-- A number in a message: as elsewhere, but a whole number has a point. -/
def floatText (x : Float) : List Char :=
  match ({ Decimal.Style.everyday with pointed := true }).literal? x with
  | some l => l.text
  | none => Decimal.displayText x

/-- What a value is, for a message about it. -/
def found : Value → Data.Found
  | .text chars => .text chars
  | .integer n => .integer n
  | .float x => .decimal (floatText x)
  | .boolean b => .boolean b
  | .moment => .map
  | .array _ => .sequence
  | .table .. => .map
  | .tables .. => .sequence

/-- The fault of a value that is not what is expected. -/
def mismatch {α : Type} (expected : String) (v : Value) : Except Data.Fault α :=
  .error (.invalidType v.found expected)

/-- A value as a double; whole numbers are rounded to one. -/
def readFloat (v : Value) : Except Data.Fault Float :=
  match v with
  | .float x => .ok x
  | .integer n => .ok (Float.ofInt n)
  | _ => v.mismatch "f64"

/-- A value as a whole number that is not negative, for a type of the given name. -/
def readNatural (expected : String) (v : Value) : Except Data.Fault Nat :=
  match v with
  | .integer (.ofNat n) => .ok n
  | .integer n => .error (.invalidValue (.integer n) expected)
  | _ => v.mismatch expected

/-- Fills fields from entries by name. Names that are not fields do not count. -/
def fillNamed {σ : Type} (slots : List (Data.Slot σ Value Data.Fault)) (s : σ)
    (entries : Entries) : Except Data.Fault σ :=
  entries.foldlM (fun s e =>
    match Data.Slot.find? slots (String.ofList e.1) with
    | some slot => slot.fill s e.2
    | none => .ok s) s

/-- Fills fields in order from values. Values beyond the fields do not count. -/
def fillInOrder {σ : Type} (slots : List (Data.Slot σ Value Data.Fault)) (s : σ)
    (vs : List Value) : Except Data.Fault σ :=
  (slots.zip vs).foldlM (fun s e => e.1.fill s e.2) s

/-- A record, from a table with its fields by name or from an array with its fields in order.
Fields that are not given stay as they are in `start`. A date has no fields. -/
def readRecord {σ : Type} (type : String) (slots : List (Data.Slot σ Value Data.Fault)) (start : σ)
    (v : Value) : Except Data.Fault σ :=
  match v with
  | .table _ entries => fillNamed slots start entries
  | .moment => .ok start
  | .array vs => fillInOrder slots start vs
  | .tables earlier last =>
    fillInOrder slots start ((earlier ++ [last]).map fun entries => .table .header entries)
  | _ => v.mismatch type

end Value

/-- The value of a document. -/
def decode {α : Type} (read : Value → Except Data.Fault α) (cs : List Char) : Except Error α :=
  match document cs with
  | none => .error .malformed
  | some v => (read v).mapError .data

end PriceSignals.Toml
