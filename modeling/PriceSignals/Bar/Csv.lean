/-
Module: PriceSignals.Bar.Csv
Purpose: Bars from tables of comma-separated values.
Main exports:
  RowFault, RowFault.message, BarTime.ofText, Bar.columns, Bar.ofCells, Bar.ofRow, Bar.listOfCsv
-/
import PriceSignals.Bar.Slots
import PriceSignals.Csv.Record
import PriceSignals.Decimal.Numeral

namespace PriceSignals

/-- Why a row of a table is not a bar. -/
inductive RowFault where
  /-- The row has not as many cells as the header. -/
  | width (expected got : Nat)
  /-- A cell of the row is not UTF-8. -/
  | notText
  /-- A cell that has to be a number is empty. -/
  | noNumber (column : Nat)
  /-- A cell is not a number. -/
  | badNumber (column : Nat)
  /-- The columns are not those of a bar. -/
  | columns (fault : Data.Fault)
deriving Repr, DecidableEq

/-- The wording of a fault in the cells of a row. Columns count from zero. -/
def RowFault.message : RowFault → String
  | .width expected got =>
    "found record with " ++ toString got ++ " fields, but the previous record has "
      ++ toString expected ++ " fields"
  | .notText => "invalid UTF-8"
  | .noNumber column => "field " ++ toString column ++ ": cannot parse float from empty string"
  | .badNumber column => "field " ++ toString column ++ ": invalid float literal"
  | .columns fault => fault.message

/-- A cell and its column. -/
structure TableCell where
  column : Nat
  text : List Char

/-- The time of a cell. Numbers are seconds; anything else stays text, also a number that is not
finite. -/
def BarTime.ofText (cs : List Char) : BarTime :=
  match Decimal.Numeral.integer? cs with
  | some secs => .unix secs
  | none =>
    match Decimal.Numeral.float? cs with
    | some secs => if secs.isFinite then .fractional secs else .text (String.ofList cs)
    | none => .text (String.ofList cs)

/-- A cell as a number. -/
def TableCell.number (cell : TableCell) : Except RowFault Float :=
  match Decimal.Numeral.float? cell.text with
  | some x => .ok x
  | none => .error (if cell.text.isEmpty then .noNumber cell.column else .badNumber cell.column)

/-- A cell as a number, or nothing if it is empty. -/
def TableCell.optionalNumber (cell : TableCell) : Except RowFault (Option Float) :=
  if cell.text.isEmpty then .ok none else cell.number.map some

namespace Bar

/-- The columns of a table of bars. -/
def columns : List (Data.Slot PartialBar TableCell RowFault) :=
  PartialBar.slots (fun cell => .ok (BarTime.ofText (Text.trim cell.text))) TableCell.number
    TableCell.optionalNumber

/-- Fills a bar from named cells. A column may stand there once; other names do not count. -/
def fillNamed : List String → PartialBar → List (String × TableCell) → Except RowFault PartialBar
  | _, b, [] => .ok b
  | seen, b, (name, cell) :: rest =>
    match Data.Slot.find? columns name with
    | none => fillNamed seen b rest
    | some slot =>
      if seen.contains name then .error (.columns (.duplicateField name))
      else do
        let b ← slot.fill b cell
        fillNamed (name :: seen) b rest

/-- The bar of a row whose cells are texts, given the names in the header. A header that is not
text names nothing: then the cells stand in their usual order. -/
def ofCells (header : Option (List String)) (cells : List TableCell) : Except RowFault Bar :=
  match header with
  | some names => do
    let b ← fillNamed [] {} (names.zip cells)
    (b.finish .named).mapError .columns
  | none => do
    let b ← (columns.zip cells).foldlM (fun b (slot, cell) => slot.fill b cell) {}
    let expected := "struct CsvRow with " ++ toString columns.length ++ " elements"
    (b.finish (.positional cells.length expected)).mapError .columns

/-- The texts of some cells without the blanks around them. -/
def trimmedTexts? (cells : List Csv.Cell) : Option (List (List Char)) :=
  cells.mapM fun cell => (Glyph.joined? cell).map Text.trim

/-- The bar of a row below a header. -/
def ofRow (header row : List Csv.Cell) : Except RowFault Bar :=
  if row.length ≠ header.length then .error (.width header.length row.length)
  else
    match trimmedTexts? row with
    | none => .error .notText
    | some texts =>
      let names := (trimmedTexts? header).map fun names => names.map String.ofList
      ofCells names (texts.zipIdx.map fun (text, column) => { column, text })

/-- The bars of rows, or the first row that is not a bar. `number` is the number of the first
row. -/
def ofRows (header : List Csv.Cell) :
    Nat → List (List Csv.Cell) → Except (Nat × RowFault) (List Bar)
  | _, [] => .ok []
  | number, row :: rest => do
    let b ← (ofRow header row).mapError (number, ·)
    let more ← ofRows header (number + 1) rest
    return b :: more

/-- The bars of a table: one for each record below the first, which is the header. A record that
is not a bar comes with its number, which counts from one. -/
def listOfCsv (gs : List Glyph) : Except (Nat × RowFault) (List Bar) :=
  match Csv.records gs with
  | [] => .ok []
  | header :: rows => ofRows header 1 rows

end Bar

end PriceSignals
