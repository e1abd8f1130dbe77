/-
Module: PriceSignals.History
Purpose: Price histories from files.
Main exports:
  Opened, HistoryFormat, HistoryFormat.ofPath?, LoadFault, LoadFault.contexts, loadHistory
-/
import PriceSignals.Bar.Csv
import PriceSignals.Bar.Json

namespace PriceSignals

/-! ### Files -/

/-- Why a file cannot be used. -/
inductive FileFault where
  | notFound
  | notADirectory
  /-- It is there, but is not text. -/
  | invalidData
  /-- It is there, but is a directory. -/
  | isADirectory
  /-- Anything else, for example a missing permission. -/
  | other
deriving Repr, DecidableEq

/-- What opening a file gives. -/
inductive Opened where
  | failed (fault : FileFault)
  /-- Directories can be opened, but have no content. -/
  | directory
  | content (bytes : List UInt8)

/-- The text of a file. -/
def Opened.text : Opened → Except FileFault (List Char)
  | failed fault => .error fault
  | directory => .error .isADirectory
  | content bytes =>
    match Glyph.chars? (Glyph.ofBytes bytes) with
    | some cs => .ok cs
    | none => .error .invalidData

/-! ### Names -/

/-- The formats of a history. -/
inductive HistoryFormat where
  | json
  | csv
deriving Repr, DecidableEq

/-- The parts of a path between its slashes. Empty parts do not count, nor does `.` behind the
first part. -/
def pathParts (path : List Char) : List (List Char) :=
  match path.splitOnP (· == '/') with
  | [] => []
  | first :: rest =>
    (if first.isEmpty then [] else [first]) ++ rest.filter fun part => part ≠ [] ∧ part ≠ ['.']

/-- What stands behind the last dot of a file's name. A dot at the very front does not count. -/
def extension? (path : List Char) : Option (List Char) :=
  match (pathParts path).getLast? with
  | none => none
  | some name =>
    if name = ['.', '.'] then none
    else
      let tail := name.reverse.takeWhile (· ≠ '.')
      if tail.length + 1 < name.length then some tail.reverse else none

/-- The format that a path's extension stands for, in letters of any case. -/
def HistoryFormat.ofPath? (path : List Char) : Option HistoryFormat :=
  match (extension? path).map Text.asciiLower with
  | some ['j', 's', 'o', 'n'] => some .json
  | some ['c', 's', 'v'] => some .csv
  | _ => none

/-! ### Loading -/

/-- Why a history cannot be loaded. -/
inductive LoadFault where
  | cannotOpen (fault : FileFault)
  | unknownFormat
  | json (error : Json.Error)
  /-- A record of a table is not a bar. Records count from one, without the header. -/
  | csv (row : Nat) (fault : RowFault)
  /-- The file can be opened, but not read. -/
  | unreadable (format : HistoryFormat) (fault : FileFault)
deriving Repr, DecidableEq

/-- What is said about a fault when a path is loaded, the outermost context first. -/
def LoadFault.contexts (path : String) (fault : LoadFault) : List String :=
  let notParsed := "failed to parse " ++ path
  let badRow (row : Nat) := "bad CSV row " ++ toString row
  match fault with
  | cannotOpen _ => ["failed to open input: " ++ path]
  | unknownFormat => ["unsupported input extension for " ++ path ++ " (expected .json or .csv)"]
  | json _ => [notParsed]
  | csv row _ => [notParsed, badRow row]
  | unreadable .json _ => [notParsed]
  | unreadable .csv _ => [notParsed, badRow 1]

/-- The bars of a text in a format. -/
def HistoryFormat.read (format : HistoryFormat) (gs : List Glyph) : Except LoadFault (List Bar) :=
  match format with
  | .json => ((Json.Reader.document gs).decode Bar.listOfJson).mapError .json
  | .csv => (Bar.listOfCsv gs).mapError fun (row, fault) => .csv row fault

/-- The bars of a file. That it cannot be opened is told first, then that its name has no known
extension, then what is wrong with its content. -/
def loadHistory (path : List Char) (file : Opened) : Except LoadFault (List Bar) :=
  match file with
  | .failed fault => .error (.cannotOpen fault)
  | .directory =>
    match HistoryFormat.ofPath? path with
    | none => .error .unknownFormat
    | some format => .error (.unreadable format .isADirectory)
  | .content bytes =>
    match HistoryFormat.ofPath? path with
    | none => .error .unknownFormat
    | some format => format.read (Glyph.ofBytes bytes)

end PriceSignals
