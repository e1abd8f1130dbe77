/-
Module: PriceSignals.Proofs.TableReadBack
Purpose: The table of an annotated history can be loaded as a history, and that has the same bars:
  the same numbers at the same instants, in the same order.
Main exports:
  TableCell.number_displayText, Bar.fillNamed_columns, Annotated.reread, Annotated.ofRow_cells,
  Annotated.records_listToCsv, Annotated.listOfCsv_listToCsv, Bar.isPlain_of_listOfCsv, Bar.Same,
  Composer.ReadsBack, annotated_table_reads_back
-/
import PriceSignals.History
import PriceSignals.Proofs.Columns
import PriceSignals.Proofs.Results
import PriceSignals.Proofs.TableText
import PriceSignals.Proofs.TimeReadBack
import PriceSignals.Proofs.Utf8

namespace PriceSignals

/-! ### Cells -/

namespace TableCell

/-- The cell of a number is read as that number. -/
theorem number_displayText (column : Nat) (x : Float) :
    number { column, text := Text.trim (Decimal.displayText x) } = .ok x := by
  rw [Text.trim_of_not_blank (Decimal.isBlank_displayText x)]
  unfold number
  rw [Decimal.float?_displayText]

/-- The cell of a number that may be absent is read as that number, or as nothing. -/
theorem optionalNumber_optionalCell (column : Nat) (v : Option Float) :
    optionalNumber { column, text := Text.trim (optionalCell v) } = .ok v := by
  cases v with
  | none => rfl
  | some x =>
      have some_text : (Decimal.displayText x).isEmpty = false := by
        cases text : Decimal.displayText x with
        | cons c cs => rfl
        | nil =>
            have read := Decimal.float?_displayText x
            rw [text] at read
            cases read
      have cell := number_displayText column x
      unfold optionalNumber
      rw [optionalCell, cell, Text.trim_of_not_blank (Decimal.isBlank_displayText x), some_text]
      rfl

end TableCell

namespace Bar

/-- The texts of written cells are found again without the blanks around them. -/
theorem trimmedTexts?_ofChars (cells : List (List Char)) :
    trimmedTexts? (cells.map Glyph.ofChars) = some (cells.map Text.trim) := by
  have joined (cs : List Char) : Glyph.joined? (Glyph.ofChars cs) = some cs := by
    rw [Glyph.joined?, Glyph.chars?_ofChars]
  unfold trimmedTexts?
  rw [List.mapM_map]
  simp only [Function.comp_def, joined, Option.map_some]
  exact List.mapM_pure

/-! ### Rows -/

/-- A cell of a column that has not been met fills its field. -/
theorem fillNamed_cons {seen : List String} {b b' : PartialBar} {name : String} {cell : TableCell}
    {rest : List (String × TableCell)} {slot : Data.Slot PartialBar TableCell RowFault}
    (known : Data.Slot.find? columns name = some slot) (fresh : seen.contains name = false)
    (filled : slot.fill b cell = .ok b') :
    fillNamed seen b ((name, cell) :: rest) = fillNamed (name :: seen) b' rest := by
  rw [fillNamed, known]
  dsimp only
  rw [fresh, filled]
  rfl

/-- Cells of other columns do not count. -/
theorem fillNamed_unknown {seen : List String} {b : PartialBar} {cells : List (String × TableCell)}
    (unknown : ∀ p ∈ cells, Data.Slot.find? columns p.1 = none) :
    fillNamed seen b cells = .ok b := by
  induction cells with
  | nil => rfl
  | cons p rest ih =>
      rw [fillNamed, unknown p List.mem_cons_self]
      exact ih fun q member => unknown q (List.mem_cons_of_mem p member)

/-- Six cells under their names fill the fields of a bar. -/
theorem fillNamed_columns {t o h l c v : TableCell} {opening high low close : Float}
    {volume : Option Float} (open_read : o.number = .ok opening) (high_read : h.number = .ok high)
    (low_read : l.number = .ok low) (close_read : c.number = .ok close)
    (volume_read : v.optionalNumber = .ok volume) (rest : List (String × TableCell)) :
    fillNamed [] {} (("time", t) :: ("open", o) :: ("high", h) :: ("low", l) :: ("close", c)
        :: ("volume", v) :: rest)
      = fillNamed ["volume", "close", "low", "high", "open", "time"]
          { time := some (BarTime.ofText (Text.trim t.text)), opening := some opening,
            high := some high, low := some low, close := some close, volume } rest := by
  rw [fillNamed_cons rfl rfl rfl, fillNamed_cons rfl rfl (bind_of_ok open_read _),
    fillNamed_cons rfl rfl (bind_of_ok high_read _), fillNamed_cons rfl rfl (bind_of_ok low_read _),
    fillNamed_cons rfl rfl (bind_of_ok close_read _),
    fillNamed_cons rfl rfl (bind_of_ok volume_read _)]

end Bar

namespace Annotated

/-- The bar that is read from the row of a bar: only the kind of its time may be another one. -/
def reread (a : Annotated) : Bar :=
  { a.bar with time := BarTime.ofText (Text.trim a.bar.time.cell) }

/-- The cells of a row under their names: those of a bar, and others. -/
theorem named_cells (a : Annotated) :
    ∃ others : List TableCell,
      columnNames.zip ((a.cells.map Text.trim).zipIdx.map fun (text, column) => { column, text })
        = ("time", { column := 0, text := Text.trim a.bar.time.cell })
          :: ("open", { column := 1, text := Text.trim (Decimal.displayText a.bar.opening) })
          :: ("high", { column := 2, text := Text.trim (Decimal.displayText a.bar.high) })
          :: ("low", { column := 3, text := Text.trim (Decimal.displayText a.bar.low) })
          :: ("close", { column := 4, text := Text.trim (Decimal.displayText a.bar.close) })
          :: ("volume", { column := 5, text := Text.trim (optionalCell a.bar.volume) })
          :: (columnNames.drop 6).zip others :=
  ⟨((a.cells.map Text.trim).zipIdx.map fun (text, column) => { column, text }).drop 6, rfl⟩

/-- The cells of a row fill the fields of a bar. Those of the other columns do not count. -/
theorem fillNamed_cells (a : Annotated) :
    Bar.fillNamed [] {} (columnNames.zip
        ((a.cells.map Text.trim).zipIdx.map fun (text, column) => { column, text }))
      = .ok { time := some a.reread.time, opening := some a.bar.opening, high := some a.bar.high,
              low := some a.bar.low, close := some a.bar.close, volume := a.bar.volume } := by
  obtain ⟨others, cells⟩ := a.named_cells
  have number := TableCell.number_displayText
  have unknown : ∀ name ∈ columnNames.drop 6, (Data.Slot.find? Bar.columns name).isNone = true := by
    decide
  rw [cells, Bar.fillNamed_columns (number 1 a.bar.opening) (number 2 a.bar.high)
    (number 3 a.bar.low) (number 4 a.bar.close)
    (TableCell.optionalNumber_optionalCell 5 a.bar.volume), Text.trim_trim]
  exact Bar.fillNamed_unknown fun p member =>
    Option.isNone_iff_eq_none.mp (unknown p.1 (List.of_mem_zip member).1)

/-- The bar that is read from the row of a bar. -/
theorem ofRow_cells (a : Annotated) :
    Bar.ofRow ((columnNames.map String.toList).map Glyph.ofChars) (a.cells.map Glyph.ofChars)
      = .ok a.reread := by
  have names : ((columnNames.map String.toList).map Text.trim).map String.ofList = columnNames := by
    decide
  have widths : ¬ (a.cells.map Glyph.ofChars).length
      ≠ ((columnNames.map String.toList).map Glyph.ofChars).length := by
    simp [length_cells]
  unfold Bar.ofRow
  rw [if_neg widths, Bar.trimmedTexts?_ofChars, Bar.trimmedTexts?_ofChars]
  dsimp only
  rw [Option.map_some, names]
  unfold Bar.ofCells
  dsimp only
  rw [fillNamed_cells]
  rfl

/-- The rows of a series are read as its bars. -/
theorem ofRows_cells (series : List Annotated) (number : Nat) :
    Bar.ofRows ((columnNames.map String.toList).map Glyph.ofChars) number
        (series.map fun a => a.cells.map Glyph.ofChars)
      = .ok (series.map reread) := by
  induction series generalizing number with
  | nil => rfl
  | cons a series ih =>
      rw [List.map_cons, Bar.ofRows, ofRow_cells]
      refine (bind_of_ok rfl _).trans ?_
      rw [ih]
      rfl

/-- The table of a series is read as its header and the cells of its bars. -/
theorem records_listToCsv (series : List Annotated) :
    Csv.records (Glyph.ofChars (listToCsv series))
      = (columnNames.map String.toList).map Glyph.ofChars
        :: series.map fun a => a.cells.map Glyph.ofChars := by
  have text : listToCsv series
      = (columnNames.map String.toList :: series.map cells).flatMap Csv.recordText := by
    rw [List.flatMap_cons, List.flatMap_map]
    rfl
  have wide : ∀ row ∈ columnNames.map String.toList :: series.map cells, 2 ≤ row.length := by
    intro row member
    obtain rfl | inside := List.mem_cons.mp member
    · decide
    · obtain ⟨a, -, rfl⟩ := List.mem_map.mp inside
      rw [length_cells]
      decide
  obtain ⟨more, start⟩ : ∃ more, listToCsv series = 't' :: more := ⟨_, rfl⟩
  rw [start, Csv.records_of_head more (by decide), ← start, text, Csv.scan_records wide]
  simp [Function.comp_def]

/-- The table of a series is read as its bars. -/
theorem listOfCsv_listToCsv (series : List Annotated) :
    Bar.listOfCsv (Glyph.ofChars (listToCsv series)) = .ok (series.map reread) := by
  rw [Bar.listOfCsv, records_listToCsv]
  exact ofRows_cells series 1

end Annotated

/-! ### Loaded bars -/

/-- A bar that is being read has no time that is a text for a number of seconds. -/
def PartialBar.IsPlain (b : PartialBar) : Prop := ∀ t, b.time = some t → t.IsPlain

namespace Bar

/-- Filling a field keeps the time plain. -/
theorem isPlain_fill {slot : Data.Slot PartialBar TableCell RowFault} (known : slot ∈ columns)
    {b b' : PartialBar} {cell : TableCell} (filled : slot.fill b cell = .ok b')
    (plain : b.IsPlain) : b'.IsPlain := by
  simp only [columns, PartialBar.slots, List.mem_cons, List.not_mem_nil, or_false] at known
  obtain rfl | rfl | rfl | rfl | rfl | rfl := known
  · cases filled
    intro t time
    obtain rfl := Option.some.inj time
    exact BarTime.isPlain_ofText cell.text
  all_goals
    obtain ⟨_, -, rest⟩ := exists_of_bind_eq_ok filled
    cases rest
    exact plain

/-- Filling a bar from named cells keeps its time plain. -/
theorem isPlain_fillNamed {seen : List String} {b b' : PartialBar}
    {cells : List (String × TableCell)} (filled : fillNamed seen b cells = .ok b')
    (plain : b.IsPlain) : b'.IsPlain := by
  induction cells generalizing seen b with
  | nil =>
      cases filled
      exact plain
  | cons p rest ih =>
      rw [fillNamed] at filled
      split at filled
      · exact ih filled plain
      · rename_i slot known
        split at filled
        · cases filled
        · obtain ⟨next, first, others⟩ := exists_of_bind_eq_ok filled
          exact ih others (isPlain_fill (List.mem_of_find?_eq_some known) first plain)

/-- So does filling it from cells in their usual order. -/
theorem isPlain_foldlM {pairs : List (Data.Slot PartialBar TableCell RowFault × TableCell)}
    (known : ∀ p ∈ pairs, p.1 ∈ columns) {b b' : PartialBar}
    (filled : pairs.foldlM (fun b (slot, cell) => slot.fill b cell) b = .ok b')
    (plain : b.IsPlain) : b'.IsPlain := by
  induction pairs generalizing b with
  | nil =>
      cases filled
      exact plain
  | cons p rest ih =>
      rw [List.foldlM_cons] at filled
      obtain ⟨next, first, others⟩ := exists_of_bind_eq_ok filled
      exact ih (fun q member => known q (List.mem_cons_of_mem p member)) others
        (isPlain_fill (known p List.mem_cons_self) first plain)

/-- A finished bar has the time that has been filled in. -/
theorem isPlain_finish {a : Data.Absence} {p : PartialBar} {b : Bar} (finished : p.finish a = .ok b)
    (plain : p.IsPlain) : b.time.IsPlain := by
  unfold PartialBar.finish at finished
  obtain ⟨t, time, finished⟩ := exists_of_bind_eq_ok finished
  obtain ⟨_, _, finished⟩ := exists_of_bind_eq_ok finished
  obtain ⟨_, _, finished⟩ := exists_of_bind_eq_ok finished
  obtain ⟨_, _, finished⟩ := exists_of_bind_eq_ok finished
  obtain ⟨_, _, finished⟩ := exists_of_bind_eq_ok finished
  cases finished
  cases given : p.time with
  | none =>
      rw [given] at time
      cases time
  | some u =>
      rw [given] at time
      cases time
      exact plain t given

/-- The bar of a row has a plain time, whether the columns have names or not. -/
theorem isPlain_ofCells {header : Option (List String)} {cells : List TableCell} {b : Bar}
    (read : ofCells header cells = .ok b) : b.time.IsPlain := by
  have empty : PartialBar.IsPlain {} := nofun
  cases header with
  | some names =>
      obtain ⟨p, filled, finished⟩ := exists_of_bind_eq_ok read
      exact isPlain_finish (mapError_eq_ok_iff.mp finished) (isPlain_fillNamed filled empty)
  | none =>
      obtain ⟨p, filled, finished⟩ := exists_of_bind_eq_ok read
      exact isPlain_finish (mapError_eq_ok_iff.mp finished)
        (isPlain_foldlM (fun q member => (List.of_mem_zip member).1) filled empty)

theorem isPlain_ofRows {header : List Csv.Cell} {number : Nat} {rows : List (List Csv.Cell)}
    {bars : List Bar} (read : ofRows header number rows = .ok bars) :
    ∀ b ∈ bars, b.time.IsPlain := by
  induction rows generalizing number bars with
  | nil =>
      cases read
      exact nofun
  | cons row rest ih =>
      obtain ⟨b, first, read⟩ := exists_of_bind_eq_ok read
      obtain ⟨more, others, read⟩ := exists_of_bind_eq_ok read
      cases read
      intro c member
      obtain rfl | inside := List.mem_cons.mp member
      · have row_read := mapError_eq_ok_iff.mp first
        unfold ofRow at row_read
        split at row_read
        · cases row_read
        · split at row_read
          · cases row_read
          · exact isPlain_ofCells row_read
      · exact ih others c inside

/-- Every bar that is read from a table has a plain time. -/
theorem isPlain_of_listOfCsv {gs : List Glyph} {bars : List Bar} (read : listOfCsv gs = .ok bars) :
    ∀ b ∈ bars, b.time.IsPlain := by
  unfold listOfCsv at read
  split at read
  · cases read
    exact nofun
  · exact isPlain_ofRows read

/-- Two bars with the same numbers, at the same instant or both at none. -/
structure Same (a b : Bar) : Prop where
  opening : a.opening = b.opening
  high : a.high = b.high
  low : a.low = b.low
  close : a.close = b.close
  volume : a.volume = b.volume
  instant : a.instant? = b.instant?

end Bar

/-- The bar that is read from the row of a bar is the same. -/
theorem Annotated.same_reread {a : Annotated} (plain : a.bar.time.IsPlain) :
    a.reread.Same a.bar :=
  { opening := rfl, high := rfl, low := rfl, close := rfl, volume := rfl
    instant := BarTime.instant?_ofText_cell plain }

/-- The table of an annotated history can be loaded as a history, and that has the same bars. -/
def Composer.ReadsBack (c : Composer) (bars : List Bar) : Prop :=
  ∃ again,
    HistoryFormat.csv.read
        (Glyph.ofBytes ((Glyph.ofChars (Annotated.listToCsv (c.annotate bars))).flatMap Glyph.bytes))
      = .ok again ∧
    List.Forall₂ Bar.Same again bars

/-- The bars that are read from the table of a series are those of the series. -/
theorem Annotated.same_map_reread {series : List Annotated}
    (plain : ∀ b ∈ series.map (·.bar), b.time.IsPlain) :
    List.Forall₂ Bar.Same (series.map reread) (series.map (·.bar)) := by
  rw [List.forall₂_map_left_iff, List.forall₂_map_right_iff, List.forall₂_same]
  intro a member
  exact same_reread (plain a.bar (List.mem_map_of_mem member))

theorem Composer.readsBack_of_isPlain (c : Composer) {bars : List Bar}
    (plain : ∀ b ∈ bars, b.time.IsPlain) : c.ReadsBack bars := by
  have column := c.annotate_bar bars
  refine ⟨(c.annotate bars).map Annotated.reread, ?_, ?_⟩
  · rw [Glyph.ofBytes_flatMap_bytes, HistoryFormat.read, Annotated.listOfCsv_listToCsv]
    rfl
  · have same := @Annotated.same_map_reread (c.annotate bars)
    rw [column] at same
    exact same plain

/-- The table that is printed can be loaded again, whatever the composer. For a history that has
been loaded from a table, and for any other whose times are no texts for numbers of seconds, that
succeeds and gives as many bars in the same order, each with the same prices and volume, and at the
same instant or at none as before. -/
theorem annotated_table_reads_back (c : Composer) :
    (∀ bytes bars, HistoryFormat.csv.read (Glyph.ofBytes bytes) = .ok bars → c.ReadsBack bars) ∧
      ∀ bars : List Bar, (∀ b ∈ bars, b.time.IsPlain) → c.ReadsBack bars := by
  refine ⟨fun bytes bars read => ?_, fun bars => c.readsBack_of_isPlain⟩
  exact c.readsBack_of_isPlain (Bar.isPlain_of_listOfCsv (mapError_eq_ok_iff.mp read))

/-- A table with a column of notes and blanks around a time, whose times are minus zero, seconds
with a fraction of nought and infinity; and a bar whose time is a text with blanks, a comma and
quotes. -/
theorem annotated_table_reads_back_mixed :
    let c := Composer.standard
    let table := "close,time,low,note,open,high\n1.5,-0,0.5,,1,2\n1.5, 5.0 ,0.5,,1,2\n1.5,inf,0.5,,1,2\n"
    let undated : Bar := ⟨.text " noon, \"GMT\" ", 1, 2, 0.5, 1.5, some (0.0 / 0.0)⟩
    (∃ bars, HistoryFormat.csv.read (Glyph.ofBytes ((Glyph.ofString table).flatMap Glyph.bytes))
        = .ok bars ∧ bars.length = 3 ∧ c.ReadsBack bars) ∧
      c.ReadsBack [undated] := by
  intro c table undated
  have read : ∃ bars,
      HistoryFormat.csv.read (Glyph.ofBytes ((Glyph.ofString table).flatMap Glyph.bytes)) = .ok bars ∧
        bars.length = 3 := by
    rw [Glyph.ofString, Glyph.ofBytes_flatMap_bytes]
    dsimp only [table]
    exact ⟨_, rfl, rfl⟩
  have whole : Decimal.Numeral.integer? (Text.trim " noon, \"GMT\" ".toList) = none := by
    decide +kernel
  have number : (Decimal.Numeral.float? (Text.trim " noon, \"GMT\" ".toList)).isNone = true := by
    decide +kernel
  have plain : ∀ b ∈ [undated], b.time.IsPlain := by
    intro b member
    obtain rfl := List.mem_singleton.mp member
    refine ⟨whole, fun x found => ?_⟩
    rw [found] at number
    cases number
  obtain ⟨bars, read, count⟩ := read
  exact ⟨⟨bars, read, count, (annotated_table_reads_back c).1 _ bars read⟩,
    (annotated_table_reads_back c).2 [undated] plain⟩

end PriceSignals
