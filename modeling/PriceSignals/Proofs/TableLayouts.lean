/-
Module: PriceSignals.Proofs.TableLayouts
Purpose: The layouts of a table: blanks around cells, quotes where none are needed, line ends of
  both kinds, empty lines, a byte order mark. Whatever the layout, the records that are read have
  the cells of the table, up to blanks around them.
Main exports:
  IsLineEnd, IsPadding, Written, Line, Sheet, File, Recovers, Written.exists_scan,
  Line.exists_scan, Sheet.forall₂_scan, File.forall₂_records
-/
import PriceSignals.Proofs.TableText
import PriceSignals.Proofs.TimeReadBack

namespace PriceSignals.Csv

/-! ### Layouts -/

/-- What ends a line. -/
inductive IsLineEnd : List Char → Prop where
  | feed : IsLineEnd ['\n']
  | returnFeed : IsLineEnd ['\r', '\n']

/-- The blanks that may stand around a cell without quotes. -/
def IsPadding (cs : List Char) : Prop := ∀ c ∈ cs, c = ' ' ∨ c = '\t'

instance : DecidablePred IsPadding := List.decidableBAll _

/-- The texts of a cell: what it holds, with blanks around it, unless that has special characters,
and what it holds in quotes. -/
inductive Written (cs : List Char) : List Char → Prop where
  | bare {front back : List Char} (before : IsPadding front) (behind : IsPadding back)
      (plain : needsQuotes cs = false) : Written cs (front ++ (cs ++ back))
  | quoted : Written cs ('"' :: doubled cs ++ ['"'])

/-- The texts of a record: those of its cells with commas between them. -/
inductive Line : List (List Char) → List Char → Prop where
  | last {cs text : List Char} (cell : Written cs text) : Line [cs] text
  | next {cs text : List Char} {row : List (List Char)} {more : List Char}
      (cell : Written cs text) (others : Line row more) : Line (cs :: row) (text ++ ',' :: more)

/-- The texts of a table: a line for each record, and empty lines anywhere. The last line need not
be ended. -/
inductive Sheet : List (List (List Char)) → List Char → Prop where
  | done : Sheet [] []
  | gap {ending more : List Char} {rows : List (List (List Char))} (ends : IsLineEnd ending)
      (others : Sheet rows more) : Sheet rows (ending ++ more)
  | line {row : List (List Char)} {text ending more : List Char} {rows : List (List (List Char))}
      (record : Line row text) (ends : IsLineEnd ending) (others : Sheet rows more) :
      Sheet (row :: rows) (text ++ (ending ++ more))
  | lastLine {row : List (List Char)} {text : List Char} (record : Line row text) :
      Sheet [row] text

/-- The texts of a file with a table. A byte order mark may stand in front of the table; a text that
starts with the mark is one with it. -/
inductive File (rows : List (List (List Char))) : List Char → Prop where
  | marked {text : List Char} (sheet : Sheet rows text) : File rows ('\ufeff' :: text)
  | unmarked {text : List Char} (sheet : Sheet rows text)
      (no_mark : text.head? ≠ some '\ufeff') : File rows text

/-! ### Cells -/

theorem IsPadding.isBlank {cs : List Char} (padding : IsPadding cs) :
    ∀ c ∈ cs, Text.isBlank c = true := by
  intro c member
  obtain rfl | rfl := padding c member
  · decide
  · decide

theorem IsPadding.needsQuotes {cs : List Char} (padding : IsPadding cs) :
    needsQuotes cs = false := by
  apply List.any_eq_false.mpr
  intro c member
  obtain rfl | rfl := padding c member
  · decide
  · decide

/-- A cell that has been read holds a text, up to blanks around it. -/
def Recovers (cs : List Char) (cell : Cell) : Prop :=
  ∃ read, cell = Glyph.ofChars read ∧ Text.trim read = Text.trim cs

/-- A cell is read from each of its texts. -/
theorem Written.exists_scan {cs text : List Char} (written : Written cs text) {mode : Mode}
    {more : List Glyph} (place : mode = .start ∨ mode = .between ∧ more.head? = some (.char ','))
    (closes : Closes more) :
    ∃ read, scan mode (Glyph.ofChars text ++ more) = fill read (scan .plain more) ∧
      Text.trim read = Text.trim cs := by
  cases written with
  | @bare front back before behind plain =>
      refine ⟨front ++ (cs ++ back), scan_plainText ?_ place closes, ?_⟩
      · have front_plain := before.needsQuotes
        have back_plain := behind.needsQuotes
        unfold Csv.needsQuotes at *
        rw [List.any_append, List.any_append, front_plain, plain, back_plain]
        rfl
      · exact Text.trim_surrounded cs before.isBlank behind.isBlank
  | quoted => exact ⟨cs, scan_quotedText cs (place.imp_right And.left) closes, rfl⟩

/-! ### Records -/

/-- Behind the last cell of a record, the record ends and others are left. -/
structure EndsRecord (tail : List Glyph) (others : List (List Cell)) : Prop where
  closes : Closes tail
  scan_eq : scan .plain tail = [[]] :: others

theorem endsRecord_nil : EndsRecord [] [] where
  closes := nofun
  scan_eq := rfl

theorem endsRecord_lineEnd {ending : List Char} (ends : IsLineEnd ending) (more : List Glyph) :
    EndsRecord (Glyph.ofChars ending ++ more) (scan .between more) := by
  cases ends with
  | feed =>
      refine ⟨?_, rfl⟩
      rintro g ⟨⟩
      exact .inr rfl
  | returnFeed =>
      refine ⟨?_, rfl⟩
      rintro g ⟨⟩
      exact .inr rfl

/-- What is left of a record is read cell by cell. -/
theorem Line.exists_scan_start {row : List (List Char)} {text : List Char} (line : Line row text)
    {tail : List Glyph} {others : List (List Cell)} (ends : EndsRecord tail others) :
    ∃ cells, scan .start (Glyph.ofChars text ++ tail) = cells :: others ∧
      List.Forall₂ Recovers row cells := by
  induction line with
  | last cell =>
      obtain ⟨read, scanned, same⟩ := cell.exists_scan (.inl rfl) ends.closes
      refine ⟨[Glyph.ofChars read], ?_, .cons ⟨read, rfl, same⟩ .nil⟩
      rw [scanned, ends.scan_eq, fill_cons, List.append_nil]
  | @next cs text row more cell _ ih =>
      obtain ⟨cells, scanned_rest, recovered⟩ := ih
      obtain ⟨read, scanned, same⟩ :=
        cell.exists_scan (.inl rfl) (closes_comma (Glyph.ofChars more ++ tail))
      refine ⟨Glyph.ofChars read :: cells, ?_, .cons ⟨read, rfl, same⟩ recovered⟩
      rw [ofChars_append_cons, List.append_assoc]
      refine scanned.trans ?_
      rw [scan_plain_comma, scanned_rest, openCell, fill_cons, List.append_nil]

/-- A record of at least two cells is read cell by cell. -/
theorem Line.exists_scan {row : List (List Char)} {text : List Char} (line : Line row text)
    (wide : 2 ≤ row.length) {tail : List Glyph} {others : List (List Cell)}
    (ends : EndsRecord tail others) :
    ∃ cells, scan .between (Glyph.ofChars text ++ tail) = cells :: others ∧
      List.Forall₂ Recovers row cells := by
  cases line with
  | last cell => simp at wide
  | @next cs text row more cell line =>
      obtain ⟨cells, scanned_rest, recovered⟩ := line.exists_scan_start ends
      obtain ⟨read, scanned, same⟩ :=
        cell.exists_scan (.inr ⟨rfl, rfl⟩) (closes_comma (Glyph.ofChars more ++ tail))
      refine ⟨Glyph.ofChars read :: cells, ?_, .cons ⟨read, rfl, same⟩ recovered⟩
      rw [ofChars_append_cons, List.append_assoc]
      refine scanned.trans ?_
      rw [scan_plain_comma, scanned_rest, openCell, fill_cons, List.append_nil]

/-! ### Tables -/

theorem ofChars_append (xs ys : List Char) :
    Glyph.ofChars (xs ++ ys) = Glyph.ofChars xs ++ Glyph.ofChars ys :=
  List.map_append

/-- A table whose records all have at least two cells is read record by record. -/
theorem Sheet.forall₂_scan {rows : List (List (List Char))} {text : List Char}
    (sheet : Sheet rows text) (wide : ∀ row ∈ rows, 2 ≤ row.length) :
    List.Forall₂ (List.Forall₂ Recovers) rows (scan .between (Glyph.ofChars text)) := by
  induction sheet with
  | done => exact .nil
  | @gap ending more rows ends _ ih =>
      have skipped : scan .between (Glyph.ofChars (ending ++ more))
          = scan .between (Glyph.ofChars more) := by
        cases ends with
        | feed => rfl
        | returnFeed => rfl
      rw [skipped]
      exact ih wide
  | @line row text ending more rows record ends _ ih =>
      obtain ⟨cells, scanned, recovered⟩ :=
        record.exists_scan (wide row List.mem_cons_self) (endsRecord_lineEnd ends _)
      rw [ofChars_append, ofChars_append, scanned]
      exact .cons recovered (ih fun other member => wide other (List.mem_cons_of_mem row member))
  | @lastLine row text record =>
      obtain ⟨cells, scanned, recovered⟩ :=
        record.exists_scan (wide row List.mem_cons_self) endsRecord_nil
      rw [List.append_nil] at scanned
      rw [scanned]
      exact .cons recovered .nil

/-- The records of a file are those of its table, up to blanks around cells. -/
theorem File.forall₂_records {rows : List (List (List Char))} {text : List Char}
    (file : File rows text) (wide : ∀ row ∈ rows, 2 ≤ row.length) :
    List.Forall₂ (List.Forall₂ Recovers) rows (records (Glyph.ofChars text)) := by
  cases file with
  | marked sheet => exact sheet.forall₂_scan wide
  | unmarked sheet no_mark =>
      have read := sheet.forall₂_scan wide
      obtain _ | ⟨c, text⟩ := text
      · exact read
      · rw [records_of_head text fun mark => no_mark (congrArg some mark)]
        exact read

end PriceSignals.Csv
