/-
Module: PriceSignals.Csv.Record
Purpose: Tables of comma-separated values: reading and writing.
Main exports:
  Mode, Action, step, scan, records, needsQuotes, cellText, recordText
-/
import PriceSignals.Text.Glyph

namespace PriceSignals.Csv

/-- What a cell holds. -/
abbrev Cell := List Glyph

/-! ### Reading -/

/-- Where in a table a reader is. -/
inductive Mode where
  /-- Before a record. Lines without anything on them are no records. -/
  | between
  /-- Before a cell of a record. -/
  | start
  /-- Within a cell without quotes, or behind the quotes of a cell. -/
  | plain
  /-- Within quotes. -/
  | quoted
  /-- Behind a quote within quotes: the end of them, or half of a doubled quote. -/
  | closing
deriving Repr, DecidableEq

/-- What is done with a symbol. -/
inductive Action where
  | drop
  | keep
  | endCell
  | endRecord
deriving Repr, DecidableEq

/-- Whether a symbol ends a line. -/
def isLineEnd (g : Glyph) : Bool := g == .char '\n' || g == .char '\r'

/-- A symbol of a cell where quotes mean nothing. -/
def stepPlain (g : Glyph) : Action × Mode :=
  if g == .char ',' then (.endCell, .start)
  else if isLineEnd g then (.endRecord, .between)
  else (.keep, .plain)

/-- A symbol at the beginning of a cell. -/
def stepStart (g : Glyph) : Action × Mode :=
  if g == .char '"' then (.drop, .quoted) else stepPlain g

/-- What a symbol does, and where the reader is then. -/
def step (mode : Mode) (g : Glyph) : Action × Mode :=
  match mode with
  | .between => if isLineEnd g then (.drop, .between) else stepStart g
  | .start => stepStart g
  | .plain => stepPlain g
  | .quoted => if g == .char '"' then (.drop, .closing) else (.keep, .quoted)
  | .closing => if g == .char '"' then (.keep, .quoted) else stepPlain g

/-- Puts a symbol before the first cell of the first record. -/
def prepend (g : Glyph) : List (List Cell) → List (List Cell)
  | (cell :: cells) :: more => ((g :: cell) :: cells) :: more
  | other => other

/-- Puts an empty cell before the first record. -/
def openCell : List (List Cell) → List (List Cell)
  | cells :: more => ([] :: cells) :: more
  | [] => []

/-- The records from a place on. Unless that is before a record, the first cell of the first
record is what is left of the cell there. The end of the text ends a record. -/
def scan : Mode → List Glyph → List (List Cell)
  | .between, [] => []
  | _, [] => [[[]]]
  | mode, g :: rest =>
    let (action, next) := step mode g
    let more := scan next rest
    match action with
    | .drop => more
    | .keep => prepend g more
    | .endCell => openCell more
    | .endRecord => [[]] :: more

/-- The records of a table. A byte order mark may stand in front. -/
def records : List Glyph → List (List Cell)
  | .char '\ufeff' :: rest => scan .between rest
  | gs => scan .between gs

/-! ### Writing -/

/-- Whether a text has to stand in quotes. -/
def needsQuotes (cs : List Char) : Bool :=
  cs.any fun c => c = ',' || c = '"' || c = '\n' || c = '\r'

/-- A text with its quotes doubled. -/
def doubled (cs : List Char) : List Char :=
  cs.flatMap fun c => if c = '"' then ['"', '"'] else [c]

/-- The text of a cell. -/
def cellText (cs : List Char) : List Char :=
  if needsQuotes cs then '"' :: doubled cs ++ ['"'] else cs

/-- The text of a record with its line end. -/
def recordText (cells : List (List Char)) : List Char :=
  List.intercalate [','] (cells.map cellText) ++ ['\n']

end PriceSignals.Csv
