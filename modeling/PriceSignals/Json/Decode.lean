/-
Module: PriceSignals.Json.Decode
Purpose: Values from the trees of JSON texts.
Main exports:
  Error, Quoted.read, Tree.readFault?, Tree.skipFault?, Tree.mismatch, Tree.float, Tree.natural,
  Tree.text, Tree.optional, Tree.list, Tree.choice, Tree.record, Reader.Document.decode
-/
import PriceSignals.Data.Slot
import PriceSignals.Decimal.Style
import PriceSignals.Json.Numeric
import PriceSignals.Json.Reader

namespace PriceSignals.Json

/-- Why a text is not a value of a type. -/
inductive Error where
  /-- The text is not JSON. -/
  | malformed
  /-- The text ends too early. -/
  | truncated
  /-- The text is JSON, at least up to there, but not of the type. -/
  | data (fault : Data.Fault)
deriving Repr, DecidableEq

/-- The error of a cut in a part that is read. -/
def Cut.whenRead : Cut → Error
  | .malformed => .malformed
  | .truncated => .truncated
  | .truncatedWord => .truncated
  | .truncatedNumber => .truncated

/-- The error of a cut in a part that is only passed over. There, the end of the text is one
more symbol that is not a digit. -/
def Cut.whenSkipped : Cut → Error
  | .malformed => .malformed
  | .truncated => .truncated
  | .truncatedWord => .truncated
  | .truncatedNumber => .malformed

/-! ### Strings -/

/-- The characters of some pieces. Halves have to come in pairs. -/
def joinHalves (cut : Option Cut) : List Piece → Except Error (List Char)
  | [] => .ok []
  | .char c :: rest => (joinHalves cut rest).map (c :: ·)
  | .stray :: rest => joinHalves cut rest
  | .half a :: rest =>
    if 0xDC00 ≤ a then .error .malformed
    else
      match rest with
      | .half b :: rest =>
        if 0xDC00 ≤ b then
          let code := 0x10000 + (a - 0xD800) * 0x400 + (b - 0xDC00)
          (joinHalves cut rest).map (Char.ofNat code :: ·)
        else .error .malformed
      | [] =>
        match cut with
        | some c => .error c.whenRead
        | none => .error .malformed
      | _ => .error .malformed

/-- The characters of a string. Stray bytes show only at its end. -/
def Quoted.read (q : Quoted) : Except Error (List Char) := do
  let cs ← joinHalves q.cut q.pieces
  match q.cut with
  | some c => throw c.whenRead
  | none => if q.pieces.contains .stray then throw .malformed else return cs

/-! ### Whole values -/

mutual

/-- The first problem in a value that is passed over. -/
def Tree.skipFault? : Tree → Option Error
  | .null | .boolean _ | .number _ => none
  | .string q => q.cut.map Cut.whenSkipped
  | .array is => is.skipFault?
  | .object ms => ms.skipFault?
  | .broken c => some c.whenSkipped

/-- The first problem in items that are passed over. -/
def Items.skipFault? : Items → Option Error
  | .closed => none
  | .cut c => some c.whenSkipped
  | .item v rest =>
    match v.skipFault? with
    | some e => some e
    | none => rest.skipFault?

/-- The first problem in members that are passed over. -/
def Members.skipFault? : Members → Option Error
  | .closed => none
  | .cut c => some c.whenSkipped
  | .member key v rest =>
    match key with
    | .string q =>
      match q.cut with
      | some c => some c.whenSkipped
      | none =>
        match v.skipFault? with
        | some e => some e
        | none => rest.skipFault?
    | .broken c => some c.whenSkipped
    | _ => some .malformed

end

/-- The characters of a key. -/
def Tree.key : Tree → Except Error (List Char)
  | .string q => q.read
  | .broken c => .error c.whenRead
  | _ => .error .malformed

mutual

/-- The first problem in a value that is read whole, arrays and objects being nested at most
`room` deep. -/
def Tree.readFault? (room : Nat) : Tree → Option Error
  | .null | .boolean _ => none
  | .number l => if (Numeric.ofLiteral? l).isNone then some .malformed else none
  | .string q =>
    match q.read with
    | .error e => some e
    | .ok _ => none
  | .array is => if room = 0 then some .malformed else is.readFault? (room - 1)
  | .object ms => if room = 0 then some .malformed else ms.readFault? (room - 1)
  | .broken c => some c.whenRead

/-- The first problem in items that are read whole. -/
def Items.readFault? (room : Nat) : Items → Option Error
  | .closed => none
  | .cut c => some c.whenRead
  | .item v rest =>
    match v.readFault? room with
    | some e => some e
    | none => rest.readFault? room

/-- The first problem in members that are read whole. -/
def Members.readFault? (room : Nat) : Members → Option Error
  | .closed => none
  | .cut c => some c.whenRead
  | .member key v rest =>
    match key.key with
    | .error e => some e
    | .ok _ =>
      match v.readFault? room with
      | some e => some e
      | none => rest.readFault? room

end

/-- How deep arrays and objects may be nested in a document. -/
def maxDepth : Nat := 127

/-! ### Plain values -/

/-- What a value is, for a message about it. Arrays and objects are not looked into. -/
def Tree.found : Tree → Except Error Data.Found
  | .null => .ok .null
  | .boolean b => .ok (.boolean b)
  | .number l =>
    match Numeric.ofLiteral? l with
    | none => .error .malformed
    | some (.natural n) => .ok (.integer n)
    | some (.negative n) => .ok (.integer (-(n : Int)))
    | some (.float x) =>
      match Decimal.Style.exchange.literal? x with
      | some l => .ok (.decimal l.text)
      | none => .ok .null
  | .string q => q.read.map .text
  | .array _ => .ok .sequence
  | .object _ => .ok .map
  | .broken c => .error c.whenRead

/-- The error of a value that is not what is expected. -/
def Tree.mismatch {α : Type} (expected : String) (v : Tree) : Except Error α := do
  let found ← v.found
  throw (.data (.invalidType found expected))

/-- A value as a double; whole numbers are rounded to one. -/
def Tree.float (v : Tree) : Except Error Float :=
  match v with
  | .number l =>
    match Numeric.ofLiteral? l with
    | some n => .ok n.toFloat
    | none => .error .malformed
  | _ => v.mismatch "f64"

/-- A value as a whole number below a bound, for a type of the given name. -/
def Tree.natural (bound : Nat) (expected : String) (v : Tree) : Except Error Nat :=
  match v with
  | .number l =>
    match Numeric.ofLiteral? l with
    | none => .error .malformed
    | some (.natural n) =>
      if n < bound then .ok n else .error (.data (.invalidValue (.integer n) expected))
    | some (.negative n) => .error (.data (.invalidValue (.integer (-(n : Int))) expected))
    | some (.float _) => v.mismatch expected
  | _ => v.mismatch expected

/-- A value as a text. -/
def Tree.text (v : Tree) : Except Error (List Char) :=
  match v with
  | .string q => q.read
  | _ => v.mismatch "a string"

/-- A value that may be null. -/
def Tree.optional {α : Type} (read : Tree → Except Error α) (v : Tree) : Except Error (Option α) :=
  match v with
  | .null => .ok none
  | _ => (read v).map some

/-- The values of all items. -/
def Items.list {α : Type} (read : Tree → Except Error α) : Items → Except Error (List α)
  | .closed => .ok []
  | .cut c => .error c.whenRead
  | .item v rest => do
    let a ← read v
    let more ← rest.list read
    return a :: more

/-- The values of an array. -/
def Tree.list {α : Type} (read : Tree → Except Error α) (v : Tree) : Except Error (List α) :=
  match v with
  | .array is => is.list read
  | _ => v.mismatch "a sequence"

/-! ### Choices -/

/-- The choice that a text names. -/
def choose {α : Type} (choices : List (String × α)) (given : List Char) : Except Error α :=
  let name := String.ofList given
  match choices.find? fun c => c.1 == name with
  | some (_, a) => .ok a
  | none => .error (.data (.unknownVariant name (choices.map (·.1))))

/-- One of some named choices: its name, or an object with null under its name alone. -/
def Tree.choice {α : Type} (choices : List (String × α)) (v : Tree) : Except Error α :=
  match v with
  | .string q => do
    let name ← q.read
    choose choices name
  | .object (.member key inner rest) => do
    let name ← key.key
    let a ← choose choices name
    match inner with
    | .null => pure ()
    | _ => inner.mismatch "unit"
    match rest with
    | .closed => return a
    | .cut c => throw c.whenRead
    | .member .. => throw .malformed
  | .object .closed => .error .malformed
  | .object (.cut c) => .error c.whenRead
  | .broken .truncated => .error .truncated
  | _ => .error .malformed

/-! ### Records -/

/-- Fills fields from members. A field may be given once. `other` deals with names that are not
fields. -/
def Members.fill {σ : Type} (slots : List (Data.Slot σ Tree Error))
    (other : σ → List Char → Tree → Except Error σ) : List String → σ → Members → Except Error σ
  | _, s, .closed => .ok s
  | _, _, .cut c => .error c.whenRead
  | seen, s, .member key v rest => do
    let chars ← key.key
    let name := String.ofList chars
    match Data.Slot.find? slots name with
    | some slot =>
      if seen.contains name then throw (.data (.duplicateField name))
      let s ← slot.fill s v
      rest.fill slots other (name :: seen) s
    | none =>
      let s ← other s chars v
      rest.fill slots other seen s

/-- Passes over a member that is not a field. -/
def skipMember {σ : Type} (s : σ) (_ : List Char) (v : Tree) : Except Error σ :=
  match v.skipFault? with
  | some e => .error e
  | none => .ok s

/-- Fills the fields in order from items. `count` is how many have been filled. There may be
fewer items than fields, but not more. -/
def Items.fill {σ : Type} : List (Data.Slot σ Tree Error) → Nat → σ → Items → Except Error (σ × Nat)
  | _, count, s, .closed => .ok (s, count)
  | _, _, _, .cut c => .error c.whenRead
  | [], _, _, .item _ _ => .error .malformed
  | slot :: slots, count, s, .item v rest => do
    let s ← slot.fill s v
    rest.fill slots (count + 1) s

/-- A record, from an object with its fields by name or from an array with its fields in order.
`finish` is told how the fields were given. -/
def Tree.record {σ α : Type} (type : String) (slots : List (Data.Slot σ Tree Error)) (start : σ)
    (finish : Data.Absence → σ → Except Data.Fault α) (v : Tree) : Except Error α :=
  match v with
  | .object ms => do
    let s ← ms.fill slots skipMember [] start
    (finish .named s).mapError .data
  | .array is => do
    let (s, count) ← is.fill slots 0 start
    let expected := type ++ " with " ++ toString slots.length ++ " elements"
    (finish (.positional count expected) s).mapError .data
  | _ => v.mismatch type

/-! ### Documents -/

/-- The value of a document. Whether anything follows it is looked at last. -/
def Reader.Document.decode {α : Type} (read : Tree → Except Error α) (d : Reader.Document) :
    Except Error α := do
  let a ← read d.root
  if d.trailing then throw .malformed
  return a

end PriceSignals.Json
