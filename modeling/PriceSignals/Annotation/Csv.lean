/-
Module: PriceSignals.Annotation.Csv
Purpose: Annotated bars as a table of comma-separated values.
Main exports:
  BarTime.cell, Annotated.columnNames, Annotated.cells, Annotated.listToCsv
-/
import PriceSignals.Annotation
import PriceSignals.Csv.Record

namespace PriceSignals

/-- The cell of a time. -/
def BarTime.cell : BarTime → List Char
  | unix secs => decimalText secs.toInt
  | fractional secs => Decimal.displayText secs
  | text chars => chars.toList

/-- The cell of a number that may be absent. -/
def optionalCell : Option Float → List Char
  | some x => Decimal.displayText x
  | none => []

namespace Annotated

/-- The names of the columns. -/
def columnNames : List String :=
  ["time", "open", "high", "low", "close", "volume", "sma20", "ema12", "ema26", "rsi14",
    "bb_upper", "bb_middle", "bb_lower", "macd", "macd_signal", "macd_histogram", "date"]

/-- The cells of a bar, one for each column; the cell of what is absent is empty. -/
def cells (a : Annotated) : List (List Char) :=
  [a.bar.time.cell,
    Decimal.displayText a.bar.opening, Decimal.displayText a.bar.high,
    Decimal.displayText a.bar.low, Decimal.displayText a.bar.close,
    optionalCell a.bar.volume,
    optionalCell a.sma, optionalCell a.emaFast, optionalCell a.emaSlow, optionalCell a.rsi,
    optionalCell (a.bollinger.map (·.upper)),
    optionalCell (a.bollinger.map (·.middle)),
    optionalCell (a.bollinger.map (·.lower)),
    optionalCell (a.macd.map (·.line)),
    optionalCell (a.macd.map (·.signal)),
    optionalCell (a.macd.map (·.histogram)),
    match a.date with
    | some t => t.textChars .offset
    | none => []]

/-- Every column has a cell. -/
theorem length_cells (a : Annotated) : a.cells.length = columnNames.length := rfl

/-- The table of a series: a header, and one record for each bar. -/
def listToCsv (series : List Annotated) : List Char :=
  Csv.recordText (columnNames.map String.toList) ++ series.flatMap fun a => Csv.recordText a.cells

end Annotated

end PriceSignals
