/-
Module: PriceSignals.Proofs.BarTables
Purpose: The layout of a table of bars does not count: the columns may stand in any order and among
  others, and the cells, lines and the file may be laid out in any way. The table is loaded as its
  bars, or refused for the first row with a number that cannot be read.
Main exports:
  FirstBad, FirstBad.exists, Bar.ofRows_of_shown, Bar.ofRows_of_firstBad,
  table_layout_does_not_count
-/
import PriceSignals.Proofs.BarRows

namespace PriceSignals

/-- The first row with a number that cannot be read, counted from zero, and the fault of its first
such cell. -/
inductive FirstBad (columns : List Column) : List (List (List Char)) → Nat → RowFault → Prop where
  | here {row : List (List Char)} {rows : List (List (List Char))} {i : Nat} {cs : List Char}
      (text : row[i]? = some cs) (bad : IsBadAt columns row i)
      (first : ∀ j < i, ¬ IsBadAt columns row j) : FirstBad columns (row :: rows) 0 (.ofCell i cs)
  | later {row : List (List Char)} {rows : List (List (List Char))} {n : Nat} {fault : RowFault}
      (readable : IsReadable columns row) (others : FirstBad columns rows n fault) :
      FirstBad columns (row :: rows) (n + 1) fault

/-! ### Rows -/

namespace Bar

variable {columns : List Column} {names : List Csv.Cell} {rows : List (List (List Char))}
  {records : List (List Csv.Cell)}

/-- Rows that show bars are read as the bars. -/
theorem ofRows_of_shown (header : IsHeader columns)
    (name_cells : List.Forall₂ Csv.Recovers (columns.map Column.name) names)
    (recovered : List.Forall₂ (List.Forall₂ Csv.Recovers) rows records) {bars : List Bar}
    (shown : List.Forall₂ (Bar.ShownIn columns) bars rows) (number : Nat) :
    ofRows names number records = .ok bars := by
  induction shown generalizing records number with
  | nil =>
      cases recovered
      rfl
  | @cons b row bars rows first _ ih =>
      cases recovered with
      | cons cells others =>
          have whole : IsRow columns row names _ := ⟨first.cells.length_eq.symm, name_cells, cells⟩
          rw [ofRows, ofRow_of_shown header whole first]
          refine (bind_of_ok rfl _).trans ?_
          rw [ih others (number + 1)]
          rfl

/-- The rows of a table are refused for the first one with a number that cannot be read. -/
theorem ofRows_of_firstBad (header : IsHeader columns)
    (name_cells : List.Forall₂ Csv.Recovers (columns.map Column.name) names)
    (recovered : List.Forall₂ (List.Forall₂ Csv.Recovers) rows records)
    (widths : ∀ row ∈ rows, row.length = columns.length) {n : Nat} {fault : RowFault}
    (bad : FirstBad columns rows n fault) (number : Nat) :
    ofRows names number records = .error (number + n, fault) := by
  induction bad generalizing records number with
  | here text bad first =>
      cases recovered with
      | cons cells others =>
          have whole := IsRow.mk (widths _ List.mem_cons_self) name_cells cells
          rw [ofRows, ofRow_of_bad header whole text bad first]
          rfl
  | @later row rows n fault readable _ ih =>
      cases recovered with
      | cons cells others =>
          have whole := IsRow.mk (widths _ List.mem_cons_self) name_cells cells
          obtain ⟨b, read⟩ := exists_ofRow header whole readable
          have refused := ih others
            (fun other member => widths other (List.mem_cons_of_mem row member))
            (number + 1)
          rw [ofRows, read]
          refine (bind_of_ok rfl _).trans ?_
          rw [refused, Nat.add_assoc, Nat.add_comm 1 n]
          rfl

end Bar

/-! ### Tables -/

/-- If some number cannot be read, there is a first one. -/
theorem FirstBad.exists {columns : List Column} {rows : List (List (List Char))}
    (bad : ∃ row ∈ rows, ¬ IsReadable columns row) : ∃ n fault, FirstBad columns rows n fault := by
  classical
  induction rows with
  | nil =>
      obtain ⟨row, member, -⟩ := bad
      cases member
  | cons row rows ih =>
      by_cases readable : IsReadable columns row
      · obtain ⟨other, member, unreadable⟩ := bad
        obtain rfl | member := List.mem_cons.mp member
        · exact absurd readable unreadable
        · obtain ⟨n, fault, others⟩ := ih ⟨other, member, unreadable⟩
          exact ⟨n + 1, fault, .later readable others⟩
      · have some_bad : ∃ i, IsBadAt columns row i := not_forall_not.mp readable
        obtain ⟨c, cs, -, text, -⟩ := Nat.find_spec some_bad
        have first : ∀ j < Nat.find some_bad, ¬ IsBadAt columns row j :=
          fun j before => Nat.find_min some_bad before
        exact ⟨0, _, .here text (Nat.find_spec some_bad) first⟩

/-- A table of bars has columns for the time and for a price. -/
theorem IsHeader.wide {columns : List Column} (header : IsHeader columns) :
    2 ≤ columns.length := by
  have inside : [Column.time, Column.opening] ⊆ columns := by
    intro c member
    apply header.required
    exact List.mem_append_left [Column.high, Column.low, Column.close] member
  have apart : [Column.time, Column.opening].Nodup := by decide
  exact (apart.subperm inside).length_le

/-- The layout of a table does not count. Whatever the order of its columns, whatever columns stand
among them, whatever the blanks around cells, the quotes, the ends of lines, the empty lines and the
mark at its start: a table that shows bars is loaded as those bars, one for each row, in the same
order; and a table with a number that cannot be read is refused for the first row with such a
number, counted from one without the header, and for the first such cell in that row. -/
theorem table_layout_does_not_count {columns : List Column} (header : IsHeader columns)
    {rows : List (List (List Char))} {text : List Char}
    (file : Csv.File (columns.map Column.name :: rows) text) :
    (∀ bars, List.Forall₂ (Bar.ShownIn columns) bars rows →
      HistoryFormat.csv.read (Glyph.ofBytes ((Glyph.ofChars text).flatMap Glyph.bytes))
        = .ok bars) ∧
      ((∀ row ∈ rows, row.length = columns.length) →
        ((∃ row ∈ rows, ¬ IsReadable columns row) → ∃ n fault, FirstBad columns rows n fault) ∧
          ∀ n fault, FirstBad columns rows n fault →
            HistoryFormat.csv.read (Glyph.ofBytes ((Glyph.ofChars text).flatMap Glyph.bytes))
              = .error (.csv (n + 1) fault)) := by
  have loaded (widths : ∀ row ∈ rows, row.length = columns.length) :
      ∃ names records, List.Forall₂ Csv.Recovers (columns.map Column.name) names ∧
        List.Forall₂ (List.Forall₂ Csv.Recovers) rows records ∧
        HistoryFormat.csv.read (Glyph.ofBytes ((Glyph.ofChars text).flatMap Glyph.bytes))
          = (Bar.ofRows names 1 records).mapError fun bad => .csv bad.1 bad.2 := by
    have wide : ∀ row ∈ columns.map Column.name :: rows, 2 ≤ row.length := by
      intro row member
      obtain rfl | member := List.mem_cons.mp member
      · rw [List.length_map]
        exact header.wide
      · rw [widths row member]
        exact header.wide
    cases found : Csv.records (Glyph.ofChars text) with
    | nil =>
        have recovered := file.forall₂_records wide
        rw [found] at recovered
        cases recovered
    | cons names records =>
        have recovered := file.forall₂_records wide
        rw [found] at recovered
        obtain ⟨name_cells, recovered⟩ := List.forall₂_cons.mp recovered
        refine ⟨names, records, name_cells, recovered, ?_⟩
        rw [HistoryFormat.read, Glyph.ofBytes_flatMap_bytes, Bar.listOfCsv, found]
  constructor
  · intro bars shown
    have widths : ∀ row ∈ rows, row.length = columns.length := by
      intro row member
      obtain ⟨i, inside, rfl⟩ := List.getElem_of_mem member
      have shown := shown.get (shown.length_eq.symm ▸ inside) inside
      exact shown.cells.length_eq.symm
    obtain ⟨names, records, name_cells, recovered, read⟩ := loaded widths
    rw [read, Bar.ofRows_of_shown header name_cells recovered shown]
    rfl
  · intro widths
    obtain ⟨names, records, name_cells, recovered, read⟩ := loaded widths
    refine ⟨FirstBad.exists, fun n fault first => ?_⟩
    rw [read, Bar.ofRows_of_firstBad header name_cells recovered widths first, Nat.add_comm 1 n]
    rfl

/-- A table with a mark, empty lines, blanks, both kinds of line ends and a column of notes among
the others, which stand in no usual order: at second 60 there is no volume, and at noon the volume
is infinite and the opening price NaN. Under the same header, a table is refused for its second row,
whose opening price has a comma for a point; the highest price there is no number either, but stands
behind it. -/
theorem table_layout_does_not_count_shuffled :
    let columns : List Column :=
      [.close, .time, .other "a \"note\"".toList, .volume, .opening, .high, .low]
    let read (text : List Char) :=
      HistoryFormat.csv.read (Glyph.ofBytes ((Glyph.ofChars text).flatMap Glyph.bytes))
    IsHeader columns ∧
      read ("\ufeff\r\nclose,\ttime ,\"a \"\"note\"\"\",volume,open,high,low\n".toList
          ++ "2,60,,,1.5,3,-0\r\n\n1,noon,\"x,\ny\",\"inf\", NaN\t,1,1".toList)
        = .ok [⟨.unix 60, 1.5, 3, -0.0, 2, none⟩, ⟨.text "noon", 0 / 0, 1, 1, 1, some (1 / 0)⟩] ∧
      read ("close,\ttime ,\"a \"\"note\"\"\",volume,open,high,low\n".toList
          ++ "2,60,,,1.5,3,-0\r\n2,61,,,\"1,5\",-,1\n".toList)
        = .error (.csv 2 (.badNumber 4)) := by
  intro columns read
  have header : IsHeader columns := by
    refine ⟨by decide, by decide, ?_⟩
    intro name member c counts
    obtain rfl : name = "a \"note\"".toList := by simpa [columns] using member
    cases c <;> first | contradiction | decide
  have padded (front cs back : String) (before : Csv.IsPadding front.toList)
      (behind : Csv.IsPadding back.toList) (plain : Csv.needsQuotes cs.toList = false) :
      Csv.Written cs.toList (front.toList ++ (cs.toList ++ back.toList)) :=
    .bare before behind plain
  have bare (cs : String) (plain : Csv.needsQuotes cs.toList = false) :
      Csv.Written cs.toList (cs.toList ++ []) :=
    @Csv.Written.bare cs.toList [] [] nofun nofun plain
  have quoted (cs : String) : Csv.Written cs.toList ('"' :: Csv.doubled cs.toList ++ ['"']) :=
    .quoted
  have names : Csv.Line (columns.map Column.name)
      "close,\ttime ,\"a \"\"note\"\"\",volume,open,high,low".toList :=
    .next (bare "close" rfl) <| .next (padded "\t" "time" " " (by decide) (by decide) rfl) <|
      .next (quoted "a \"note\"") <| .next (bare "volume" rfl) <| .next (bare "open" rfl) <|
      .next (bare "high" rfl) <| .last (bare "low" rfl)
  have minute : Csv.Line (["2", "60", "", "", "1.5", "3", "-0"].map String.toList)
      "2,60,,,1.5,3,-0".toList :=
    .next (bare "2" rfl) <| .next (bare "60" rfl) <| .next (bare "" rfl) <| .next (bare "" rfl) <|
      .next (bare "1.5" rfl) <| .next (bare "3" rfl) <| .last (bare "-0" rfl)
  have noon : Csv.Line (["1", "noon", "x,\ny", "inf", "NaN", "1", "1"].map String.toList)
      "1,noon,\"x,\ny\",\"inf\", NaN\t,1,1".toList :=
    .next (bare "1" rfl) <| .next (bare "noon" rfl) <| .next (quoted "x,\ny") <|
      .next (quoted "inf") <| .next (padded " " "NaN" "\t" (by decide) (by decide) rfl) <|
      .next (bare "1" rfl) <| .last (bare "1" rfl)
  have comma : Csv.Line (["2", "61", "", "", "1,5", "-", "1"].map String.toList)
      "2,61,,,\"1,5\",-,1".toList :=
    .next (bare "2" rfl) <| .next (bare "61" rfl) <| .next (bare "" rfl) <| .next (bare "" rfl) <|
      .next (quoted "1,5") <| .next (bare "-" rfl) <| .last (bare "1" rfl)
  have no_number : (BarTime.text "noon").IsPlain := by
    have none_read : Decimal.Numeral.float? "noon".toList = none := by decide +kernel
    exact ⟨by decide +kernel, fun x read => absurd (none_read.symm.trans read) nofun⟩
  refine ⟨header, ?_, ?_⟩
  · have file := Csv.File.marked <| .gap .returnFeed <| .line names .feed <|
      .line minute .returnFeed <| .gap .feed <| .lastLine noon
    have shown := (table_layout_does_not_count header file).1
      [⟨.unix 60, 1.5, 3, -0.0, 2, none⟩, ⟨.text "noon", 0 / 0, 1, 1, 1, some (1 / 0)⟩]
      (.cons ⟨trivial, absurd rfl, by decide +kernel⟩ <|
        .cons ⟨⟨by decide, no_number⟩, fun _ => by decide, by decide +kernel⟩ .nil)
    exact (congrArg (fun text => read text = _) (by decide)).mp shown
  · have file := Csv.File.unmarked
      (.line names .feed <| .line minute .returnFeed <| .line comma .feed .done) (by decide)
    have refused := ((table_layout_does_not_count header file).2 (by decide)).2 1 _
      (.later (by decide +kernel) <|
        @FirstBad.here _ _ _ 4 "1,5".toList rfl (by decide +kernel) (by decide +kernel))
    exact (congrArg (fun text => read text = _) (by decide)).mp refused

end PriceSignals
