/-
Module: PriceSignals.Proofs.BarRows
Purpose: The rows of a table of bars whose columns stand in any order and among others. A row is
  read cell by cell, each as its column says: as the bar it shows, or up to the first cell that is
  no number.
Main exports:
  Column, Column.Shows, Column.Unreadable, Column.read, IsHeader, Bar.ShownIn, IsBadAt, IsReadable,
  RowFault.ofCell, Bar.IsRow, Bar.fillNamed_eq, Bar.ofRow_eq, Bar.ofRow_of_shown, Bar.exists_ofRow,
  Bar.ofRow_of_bad
-/
import PriceSignals.Proofs.TableLayouts
import PriceSignals.Proofs.TableReadBack

namespace PriceSignals

open Decimal (displayText)

/-! ### Columns -/

/-- The columns of a table of bars: those of the fields of a bar, and others, which do not count. -/
inductive Column where
  | time
  | opening
  | high
  | low
  | close
  | volume
  | other (name : List Char)
deriving DecidableEq

namespace Column

/-- The name of a column in the header. -/
def name : Column → List Char
  | time => "time".toList
  | opening => "open".toList
  | high => "high".toList
  | low => "low".toList
  | close => "close".toList
  | volume => "volume".toList
  | other name => name

/-- The columns that no table of bars is without. -/
def required : List Column := [time, opening, high, low, close]

/-- Whether a column is that of a field. -/
def counts : Column → Bool
  | other _ => false
  | _ => true

/-- What a column shows of a bar. The columns that do not count may show anything. -/
def Shows (b : Bar) : Column → List Char → Prop
  | time, cs => cs = b.time.cell
  | opening, cs => cs = displayText b.opening
  | high, cs => cs = displayText b.high
  | low, cs => cs = displayText b.low
  | close, cs => cs = displayText b.close
  | volume, cs => cs = optionalCell b.volume
  | other _, _ => True

/-- A text that has to be a number and is none. The volume may be left empty. -/
def Unreadable : Column → List Char → Prop
  | time, _ => False
  | other _, _ => False
  | volume, cs => Text.trim cs ≠ [] ∧ Decimal.Numeral.float? (Text.trim cs) = none
  | _, cs => Decimal.Numeral.float? (Text.trim cs) = none

/-- The name under which a column is looked up. -/
def key (c : Column) : String := String.ofList (Text.trim c.name)

/-- What a cell of a column changes about a bar that is being read. -/
def read (c : Column) (cell : TableCell) : Except RowFault (PartialBar → PartialBar) :=
  match c with
  | time => .ok fun b => { b with time := some (BarTime.ofText (Text.trim cell.text)) }
  | opening => cell.number.map fun x b => { b with opening := some x }
  | high => cell.number.map fun x b => { b with high := some x }
  | low => cell.number.map fun x b => { b with low := some x }
  | close => cell.number.map fun x b => { b with close := some x }
  | volume => cell.optionalNumber.map fun v b => { b with volume := v }
  | other _ => .ok id

end Column

/-- The columns of a table of bars: all that are required, each at most once, and others that are
not taken for them. -/
structure IsHeader (columns : List Column) : Prop where
  required : ∀ c ∈ Column.required, c ∈ columns
  once : (columns.filter Column.counts).Nodup
  others : ∀ name, .other name ∈ columns → ∀ c : Column, c.counts = true →
    Text.trim name ≠ c.name

/-- A time whose cell is read as the very same time: a number of seconds with a fraction in its
text, or a text without blanks around it that is no number of seconds. -/
def BarTime.IsShown : BarTime → Prop
  | unix _ => True
  | fractional secs => '.' ∈ displayText secs
  | text chars => Text.trim chars.toList = chars.toList ∧ (text chars).IsPlain

/-- The cells of a row show a bar. Without a column for it, there is no volume. -/
structure Bar.ShownIn (columns : List Column) (b : Bar) (row : List (List Char)) : Prop where
  time : b.time.IsShown
  volume : b.volume ≠ none → .volume ∈ columns
  cells : List.Forall₂ (Column.Shows b) columns row

/-- The cell at a place of a row has to be a number and is none. -/
def IsBadAt (columns : List Column) (row : List (List Char)) (i : Nat) : Prop :=
  ∃ c cs, columns[i]? = some c ∧ row[i]? = some cs ∧ c.Unreadable cs

/-- Whether all numbers of a row can be read. -/
def IsReadable (columns : List Column) (row : List (List Char)) : Prop :=
  ∀ i, ¬ IsBadAt columns row i

/-- The fault of a cell that is no number. -/
def RowFault.ofCell (column : Nat) (cs : List Char) : RowFault :=
  if (Text.trim cs).isEmpty then .noNumber column else .badNumber column

instance (b : Bar) : DecidableRel (Column.Shows b)
  | .time, _ | .opening, _ | .high, _ | .low, _ | .close, _ | .volume, _ =>
    inferInstanceAs (Decidable (_ = _))
  | .other _, _ => inferInstanceAs (Decidable True)

instance (c : Column) (cs : List Char) : Decidable (c.Unreadable cs) :=
  match c with
  | .time => inferInstanceAs (Decidable False)
  | .other _ => inferInstanceAs (Decidable False)
  | .volume =>
    inferInstanceAs (Decidable (Text.trim cs ≠ [] ∧ Decimal.Numeral.float? (Text.trim cs) = none))
  | .opening | .high | .low | .close =>
    inferInstanceAs (Decidable (Decimal.Numeral.float? (Text.trim cs) = none))

instance (columns : List Column) (row : List (List Char)) (i : Nat) :
    Decidable (IsBadAt columns row i) :=
  decidable_of_iff (∃ c ∈ columns[i]?, ∃ cs ∈ row[i]?, c.Unreadable cs)
    ⟨fun ⟨c, column, cs, text, bad⟩ => ⟨c, cs, column, text, bad⟩,
      fun ⟨c, cs, column, text, bad⟩ => ⟨c, column, cs, text, bad⟩⟩

instance (columns : List Column) (row : List (List Char)) : Decidable (IsReadable columns row) :=
  decidable_of_iff (∀ i < row.length, ¬ IsBadAt columns row i) <| by
    refine ⟨fun readable i bad => ?_, fun readable i _ => readable i⟩
    have inside : i < row.length := by
      obtain ⟨c, cs, -, text, -⟩ := bad
      exact (List.getElem?_eq_some_iff.mp text).1
    exact readable i inside bad

namespace Column

theorem key_ne_of_ne {c d : Column} (first : c.counts = true) (second : d.counts = true)
    (apart : c ≠ d) : c.key ≠ d.key := by
  cases c <;> cases d <;> first | contradiction | decide

/-- A column that has not been met has another name than those that have. -/
theorem contains_key {seen : List Column} (known : ∀ d ∈ seen, d.counts = true) {c : Column}
    (counts : c.counts = true) (fresh : c ∉ seen) : (seen.map key).contains c.key = false := by
  apply Bool.eq_false_iff.mpr
  intro met
  obtain ⟨d, member, same⟩ := List.mem_map.mp (List.contains_iff_mem.mp met)
  have apart : d ≠ c := fun equal => fresh (equal ▸ member)
  exact key_ne_of_ne (known d member) counts apart same

/-- The slot of a column does what the column does. -/
theorem exists_slot {c : Column} (counts : c.counts = true) :
    ∃ slot, Data.Slot.find? Bar.columns c.key = some slot ∧
      ∀ b cell, slot.fill b cell = (c.read cell).map fun change => change b := by
  cases c with
  | other name => cases counts
  | time => exact ⟨_, rfl, fun b cell => rfl⟩
  | volume =>
      refine ⟨_, rfl, fun b cell => ?_⟩
      cases number : cell.optionalNumber <;> simp [read, number] <;> rfl
  | _ =>
      refine ⟨_, rfl, fun b cell => ?_⟩
      cases number : cell.number <;> simp [read, number] <;> rfl

/-- Columns that do not count are not taken for those that do. -/
theorem find?_of_other {columns : List Column} (header : IsHeader columns) {name : List Char}
    (member : .other name ∈ columns) : Data.Slot.find? Bar.columns (other name).key = none := by
  have apart (c : Column) (counts : c.counts = true) : String.ofList c.name ≠ (other name).key :=
    fun same => header.others name member c counts (String.ofList_injective same).symm
  apply List.find?_eq_none.mpr
  intro slot known found
  simp only [Bar.columns, PartialBar.slots, List.mem_cons, List.not_mem_nil, or_false] at known
  obtain rfl | rfl | rfl | rfl | rfl | rfl := known
  · exact apart .time rfl (eq_of_beq found)
  · exact apart .opening rfl (eq_of_beq found)
  · exact apart .high rfl (eq_of_beq found)
  · exact apart .low rfl (eq_of_beq found)
  · exact apart .close rfl (eq_of_beq found)
  · exact apart .volume rfl (eq_of_beq found)

end Column

/-! ### Rows -/

namespace Bar

open Column (key read)

/-- Cells under the names of their columns are filled in one after the other. -/
theorem fillNamed_eq {columns : List Column} (header : IsHeader columns)
    {pairs : List (Column × TableCell)} (inside : ∀ p ∈ pairs, p.1 ∈ columns)
    (once : ((pairs.map Prod.fst).filter Column.counts).Nodup) {seen : List Column}
    (known : ∀ c ∈ seen, c.counts = true) (fresh : ∀ p ∈ pairs, p.1 ∉ seen) (b : PartialBar) :
    fillNamed (seen.map key) b (pairs.map fun p => (key p.1, p.2))
      = (pairs.mapM fun p => read p.1 p.2).map fun changes =>
          changes.foldl (fun b change => change b) b := by
  induction pairs generalizing seen b with
  | nil => rfl
  | cons p rest ih =>
      obtain ⟨c, cell⟩ := p
      have inside_rest := fun q member => inside q (List.mem_cons_of_mem (c, cell) member)
      have fresh_rest := fun q member => fresh q (List.mem_cons_of_mem (c, cell) member)
      rw [List.map_cons, fillNamed, List.mapM_cons]
      cases counts : c.counts with
      | false =>
          cases c with
          | other name =>
              rw [List.map_cons, List.filter_cons_of_neg (by simp [counts])] at once
              have unknown := Column.find?_of_other header (inside _ List.mem_cons_self)
              rw [unknown]
              refine (ih inside_rest once known fresh_rest b).trans ?_
              cases others : rest.mapM fun p => read p.1 p.2 with
              | error e => rfl
              | ok changes => rfl
          | _ => cases counts
      | true =>
          rw [List.map_cons, List.filter_cons_of_pos counts, List.nodup_cons] at once
          obtain ⟨slot, found, filled⟩ := Column.exists_slot counts
          have new := Column.contains_key known counts (fresh (c, cell) List.mem_cons_self)
          have known_next : ∀ d ∈ c :: seen, d.counts = true :=
            List.forall_mem_cons.mpr ⟨counts, known⟩
          have fresh_next : ∀ q ∈ rest, q.1 ∉ c :: seen := by
            intro q member met
            obtain same | met := List.mem_cons.mp met
            · have inside : q.1 ∈ (rest.map Prod.fst).filter Column.counts :=
                List.mem_filter.mpr ⟨List.mem_map_of_mem member, same ▸ counts⟩
              exact once.1 (same ▸ inside)
            · exact fresh_rest q member met
          rw [found]
          dsimp only
          rw [new, filled]
          cases first : read c cell with
          | error e => rfl
          | ok change =>
              refine (ih inside_rest once.2 known_next fresh_next (change b)).trans ?_
              cases others : rest.mapM fun p => read p.1 p.2 with
              | error e => rfl
              | ok changes => rfl

/-- The cells of a row, as they are read. -/
def cellsOf (row : List (List Char)) : List TableCell :=
  (row.map Text.trim).zipIdx.map fun (text, column) => { column, text }

theorem length_cellsOf (row : List (List Char)) : (cellsOf row).length = row.length := by
  simp [cellsOf]

theorem getElem?_cellsOf (row : List (List Char)) (i : Nat) :
    (cellsOf row)[i]? = row[i]?.map fun cs => { column := i, text := Text.trim cs } := by
  simp [cellsOf, List.getElem?_zipIdx, Function.comp_def]

/-- A cell below a column is that of some place in the row. -/
theorem exists_of_mem_zip {columns : List Column} {row : List (List Char)}
    {p : Column × TableCell} (member : p ∈ columns.zip (cellsOf row)) :
    ∃ i cs, columns[i]? = some p.1 ∧ row[i]? = some cs ∧
      p.2 = { column := i, text := Text.trim cs } := by
  obtain ⟨i, found⟩ := List.mem_iff_getElem?.mp member
  obtain ⟨column, cell⟩ := List.getElem?_zip_eq_some.mp found
  rw [getElem?_cellsOf, Option.map_eq_some_iff] at cell
  obtain ⟨cs, shown, same⟩ := cell
  exact ⟨i, cs, column, shown, same.symm⟩

/-- The texts of cells are found in what is read of them, without the blanks around them. -/
theorem trimmedTexts?_of_recovers {row : List (List Char)} {cells : List Csv.Cell}
    (recovered : List.Forall₂ Csv.Recovers row cells) :
    trimmedTexts? cells = some (row.map Text.trim) := by
  induction recovered with
  | nil => rfl
  | cons first _ ih =>
      obtain ⟨text, rfl, same⟩ := first
      have joined : Glyph.joined? (Glyph.ofChars text) = some text := by
        rw [Glyph.joined?, Glyph.chars?_ofChars]
      unfold trimmedTexts? at ih ⊢
      rw [List.mapM_cons, ih, joined, List.map_cons, ← same]
      rfl

/-- What has been read of a header and of a row below it. -/
structure IsRow (columns : List Column) (row : List (List Char)) (names cells : List Csv.Cell) :
    Prop where
  width : row.length = columns.length
  names : List.Forall₂ Csv.Recovers (columns.map Column.name) names
  cells : List.Forall₂ Csv.Recovers row cells

variable {columns : List Column} {row : List (List Char)} {names cells : List Csv.Cell}

/-- The row of a table is read cell by cell, each as its column says. -/
theorem ofRow_eq (header : IsHeader columns) (recovered : IsRow columns row names cells) :
    ofRow names cells = (do
      let changes ← (columns.zip (cellsOf row)).mapM fun p => read p.1 p.2
      ((changes.foldl (fun b change => change b) {} : PartialBar).finish .named).mapError
        RowFault.columns) := by
  have lengths : ¬ cells.length ≠ names.length := by
    rw [← recovered.names.length_eq, ← recovered.cells.length_eq, List.length_map]
    exact not_not_intro recovered.width
  have columns_zipped : (columns.zip (cellsOf row)).map Prod.fst = columns :=
    List.map_fst_zip (by rw [length_cellsOf, recovered.width])
  have keys : ((columns.map Column.name).map Text.trim).map String.ofList = columns.map key := by
    rw [List.map_map, List.map_map]
    rfl
  have pairs : (columns.map key).zip (cellsOf row)
      = (columns.zip (cellsOf row)).map fun p => (key p.1, p.2) := by
    rw [List.zip_map_left]
    rfl
  unfold ofRow
  rw [if_neg lengths, trimmedTexts?_of_recovers recovered.cells,
    trimmedTexts?_of_recovers recovered.names]
  dsimp only
  rw [Option.map_some, keys]
  unfold ofCells
  dsimp only
  change (fillNamed [] {} ((columns.map key).zip (cellsOf row)) >>= _) = _
  rw [pairs]
  have once : ((columns.zip (cellsOf row)).map Prod.fst |>.filter Column.counts).Nodup := by
    rw [columns_zipped]
    exact header.once
  have filled := @fillNamed_eq columns header (columns.zip (cellsOf row))
    (fun p member => (List.of_mem_zip member).1) once [] nofun (fun _ _ => List.not_mem_nil) {}
  rw [List.map_nil] at filled
  rw [filled]
  cases (columns.zip (cellsOf row)).mapM fun p => read p.1 p.2 with
  | error e => rfl
  | ok changes => rfl

/-! ### Rows that show bars -/

/-- What is known of a bar when some columns have been read. -/
def part (b : Bar) (seen : List Column) : PartialBar where
  time := if .time ∈ seen then some b.time else none
  opening := if .opening ∈ seen then some b.opening else none
  high := if .high ∈ seen then some b.high else none
  low := if .low ∈ seen then some b.low else none
  close := if .close ∈ seen then some b.close else none
  volume := if .volume ∈ seen then b.volume else none

/-- A change adds the field of a column to what is known of a bar. -/
def Adds (b : Bar) (c : Column) (change : PartialBar → PartialBar) : Prop :=
  ∀ seen, change (b.part seen) = b.part (c :: seen)

theorem foldl_adds {b : Bar} {pairs : List (Column × TableCell)}
    {changes : List (PartialBar → PartialBar)}
    (adds : List.Forall₂ (fun p change => b.Adds p.1 change) pairs changes) (seen : List Column) :
    changes.foldl (fun b change => change b) (b.part seen)
      = b.part ((pairs.map Prod.fst).reverse ++ seen) := by
  induction adds generalizing seen with
  | nil => rfl
  | cons first _ ih =>
      rw [List.foldl_cons, first seen, ih, List.map_cons, List.reverse_cons, List.append_assoc]
      rfl

/-- A bar is whole when all its columns have been read. -/
theorem finish_part {b : Bar} {seen : List Column} (required : ∀ c ∈ Column.required, c ∈ seen)
    (volume : b.volume ≠ none → .volume ∈ seen) (a : Data.Absence) :
    (b.part seen).finish a = .ok b := by
  have kept : (if .volume ∈ seen then b.volume else none) = b.volume := by
    split
    · rfl
    · rename_i absent
      exact (not_not.mp fun some_volume => absent (volume some_volume)).symm
  have met := fun c member => required c member
  unfold part PartialBar.finish
  rw [kept, if_pos (met .time (by decide)), if_pos (met .opening (by decide)),
    if_pos (met .high (by decide)), if_pos (met .low (by decide)),
    if_pos (met .close (by decide))]
  rfl

end Bar

/-! ### Times -/

/-- A whole number has nothing but digits behind its sign. -/
theorem Decimal.Numeral.point_not_mem_of_integer? {cs : List Char} {n : Int64}
    (read : integer? cs = some n) : '.' ∉ cs := by
  have digits (cs : List Char) (row : List Digit)
      (taken : Digit.takeRow Digit.ofChar? cs = (row, [])) : '.' ∉ cs := by
    induction cs generalizing row with
    | nil => exact List.not_mem_nil
    | cons c cs ih =>
        rw [Digit.takeRow] at taken
        cases digit : Digit.ofChar? c with
        | none => simp [digit] at taken
        | some d =>
            rw [digit] at taken
            obtain ⟨-, rest⟩ := Prod.mk.inj taken
            intro point
            obtain rfl | inside := List.mem_cons.mp point
            · cases digit
            · exact ih _ (Prod.ext rfl rest) inside
  have behind_sign : '.' ∈ cs → '.' ∈ (splitSign cs).2 := by
    intro point
    unfold splitSign
    split
    · exact (List.mem_cons.mp point).resolve_left (by decide)
    · exact (List.mem_cons.mp point).resolve_left (by decide)
    · exact point
  intro point
  unfold integer? at read
  dsimp only at read
  split at read
  · cases read
  · rename_i row _ taken
    exact digits _ row taken (behind_sign point)
  · cases read

/-- A double whose text has a point is finite. -/
theorem Decimal.isFinite_of_point {x : Float} (point : '.' ∈ displayText x) :
    x.isFinite = true := by
  obtain ⟨l, written, -⟩ | ⟨-, text⟩ | ⟨-, text⟩ | ⟨-, text⟩ := displayText_cases x
  · exact isFinite_of_literal? written
  · exact absurd (text ▸ point) (by decide)
  · exact absurd (text ▸ point) (by decide)
  · exact absurd (text ▸ point) (by decide)

/-- The time of a bar is read as it is shown. -/
theorem BarTime.ofText_cell {t : BarTime} (shown : t.IsShown) : ofText (Text.trim t.cell) = t := by
  cases t with
  | unix secs =>
      rw [cell, Text.trim_of_not_blank (Decimal.Numeral.isBlank_decimalText secs.toInt), ofText,
        Decimal.Numeral.integer?_decimalText]
  | fractional secs =>
      have no_integer : Decimal.Numeral.integer? (displayText secs) = none :=
        Option.eq_none_iff_forall_ne_some.mpr fun n read =>
          Decimal.Numeral.point_not_mem_of_integer? read shown
      rw [cell, Text.trim_of_not_blank (Decimal.isBlank_displayText secs), ofText, no_integer,
        Decimal.float?_displayText]
      exact if_pos (Decimal.isFinite_of_point shown)
  | text chars =>
      obtain ⟨trimmed, no_integer, infinite⟩ := shown
      rw [trimmed] at no_integer infinite
      rw [cell, trimmed, ofText, no_integer]
      cases number : Decimal.Numeral.float? chars.toList with
      | none => exact congrArg text String.ofList_toList
      | some x => simp [infinite x number]

/-! ### What is read of a row -/

/-- The cell of a column that shows a bar adds the field of the bar. -/
theorem Column.exists_adds {b : Bar} (time : b.time.IsShown) {c : Column} {cs : List Char}
    (shows_bar : c.Shows b cs) (column : Nat) :
    ∃ change, c.read { column, text := Text.trim cs } = .ok change ∧ b.Adds c change := by
  have number (x : Float) := TableCell.number_displayText column x
  cases c with
  | time =>
      obtain rfl := shows_bar
      refine ⟨_, rfl, fun seen => ?_⟩
      have same : BarTime.ofText (Text.trim (Text.trim b.time.cell)) = b.time := by
        rw [Text.trim_trim, BarTime.ofText_cell time]
      simp [Bar.part, same]
  | opening =>
      obtain rfl := shows_bar
      refine ⟨_, by rw [read, number]; rfl, fun seen => by simp [Bar.part]⟩
  | high =>
      obtain rfl := shows_bar
      refine ⟨_, by rw [read, number]; rfl, fun seen => by simp [Bar.part]⟩
  | low =>
      obtain rfl := shows_bar
      refine ⟨_, by rw [read, number]; rfl, fun seen => by simp [Bar.part]⟩
  | close =>
      obtain rfl := shows_bar
      refine ⟨_, by rw [read, number]; rfl, fun seen => by simp [Bar.part]⟩
  | volume =>
      obtain rfl := shows_bar
      have optional := TableCell.optionalNumber_optionalCell column b.volume
      refine ⟨_, by rw [read, optional]; rfl, fun seen => by simp [Bar.part]⟩
  | other name => exact ⟨id, rfl, fun seen => by simp [Bar.part]⟩

namespace Bar

variable {columns : List Column} {row : List (List Char)} {names cells : List Csv.Cell}

/-- A row that shows a bar is read as the bar. -/
theorem ofRow_of_shown (header : IsHeader columns) (recovered : IsRow columns row names cells)
    {b : Bar} (shown : b.ShownIn columns row) : ofRow names cells = .ok b := by
  have fine : ∀ p ∈ columns.zip (cellsOf row),
      ∃ change, p.1.read p.2 = .ok change ∧ b.Adds p.1 change := by
    rintro ⟨c, cell⟩ member
    obtain ⟨i, cs, column, text, rfl⟩ := exists_of_mem_zip member
    have shows_bar : c.Shows b cs := by
      obtain ⟨inside, rfl⟩ := List.getElem?_eq_some_iff.mp column
      obtain ⟨inside', rfl⟩ := List.getElem?_eq_some_iff.mp text
      exact shown.cells.get inside inside'
    exact Column.exists_adds shown.time shows_bar i
  obtain ⟨changes, read_all, adds⟩ := exists_forall₂_of_mapM fine
  rw [ofRow_eq header recovered]
  refine (bind_of_ok read_all _).trans ?_
  have start : ({} : PartialBar) = b.part [] := by simp [part]
  rw [start, foldl_adds adds, List.map_fst_zip (by rw [length_cellsOf, recovered.width]),
    List.append_nil, finish_part (fun c member => List.mem_reverse.mpr (header.required c member))
      (fun some_volume => List.mem_reverse.mpr (shown.volume some_volume))]
  rfl

end Bar

/-! ### What cannot be read of a row -/

/-- The field of a column is known, if it has to be. -/
def PartialBar.Has (b : PartialBar) : Column → Prop
  | .time => b.time.isSome
  | .opening => b.opening.isSome
  | .high => b.high.isSome
  | .low => b.low.isSome
  | .close => b.close.isSome
  | _ => True

/-- A change makes the field of a column known, and no other one unknown. -/
structure Column.Fills (c : Column) (change : PartialBar → PartialBar) : Prop where
  has : ∀ b, (change b).Has c
  keeps : ∀ b d, b.Has d → (change b).Has d

/-- A cell that is no number is refused. -/
theorem Column.read_of_unreadable {c : Column} {cs : List Char} (unreadable : c.Unreadable cs)
    (column : Nat) :
    c.read { column, text := Text.trim cs } = .error (.ofCell column cs) := by
  have refused (no_number : Decimal.Numeral.float? (Text.trim cs) = none) :
      TableCell.number { column, text := Text.trim cs } = .error (.ofCell column cs) := by
    unfold TableCell.number
    rw [no_number]
    rfl
  cases c with
  | time => cases unreadable
  | other name => cases unreadable
  | volume =>
      obtain ⟨some_text, no_number⟩ := unreadable
      have filled : (Text.trim cs).isEmpty = false := by simpa using some_text
      unfold read TableCell.optionalNumber
      dsimp only
      rw [filled, refused no_number]
      rfl
  | _ =>
      unfold read
      rw [refused unreadable]
      rfl

/-- Any other cell is read. -/
theorem Column.exists_fills {c : Column} {cs : List Char} (readable : ¬ c.Unreadable cs)
    (column : Nat) :
    ∃ change, c.read { column, text := Text.trim cs } = .ok change ∧ c.Fills change := by
  have number (some_number : Decimal.Numeral.float? (Text.trim cs) ≠ none) :
      ∃ x, TableCell.number { column, text := Text.trim cs } = .ok x := by
    obtain ⟨x, found⟩ := Option.ne_none_iff_exists'.mp some_number
    exact ⟨x, by rw [TableCell.number, found]⟩
  cases c with
  | time =>
      refine ⟨_, rfl, fun b => Option.isSome_some, fun b d has => ?_⟩
      cases d <;> first | exact has | exact Option.isSome_some
  | other name => exact ⟨id, rfl, fun b => trivial, fun b d has => has⟩
  | volume =>
      have optional : ∃ v, TableCell.optionalNumber { column, text := Text.trim cs } = .ok v := by
        unfold TableCell.optionalNumber
        split
        · exact ⟨none, rfl⟩
        · rename_i some_text
          have some_text : Text.trim cs ≠ [] := by simpa using some_text
          obtain ⟨x, found⟩ := number fun no_number => readable ⟨some_text, no_number⟩
          exact ⟨some x, by rw [found]; rfl⟩
      obtain ⟨v, found⟩ := optional
      refine ⟨_, by rw [read, found]; rfl, fun b => trivial, fun b d has => ?_⟩
      cases d <;> exact has
  | _ =>
      obtain ⟨x, found⟩ := number readable
      refine ⟨_, by rw [read, found]; rfl, fun b => ?_, fun b d has => ?_⟩
      · exact Option.isSome_some
      · cases d <;> first | exact has | exact Option.isSome_some

/-- When all cells have been read, the fields of their columns are known. -/
theorem PartialBar.has_foldl {pairs : List (Column × TableCell)}
    {changes : List (PartialBar → PartialBar)}
    (fills : List.Forall₂ (fun p change => p.1.Fills change) pairs changes) (b : PartialBar) :
    (∀ d, b.Has d → (changes.foldl (fun b change => change b) b).Has d) ∧
      ∀ c ∈ pairs.map Prod.fst, (changes.foldl (fun b change => change b) b).Has c := by
  induction fills generalizing b with
  | nil => exact ⟨fun d has => has, nofun⟩
  | @cons p change _ _ first _ ih =>
      obtain ⟨kept, met⟩ := ih (change b)
      refine ⟨fun d has => kept d (first.keeps b d has), fun c member => ?_⟩
      obtain rfl | member := List.mem_cons.mp member
      · exact kept p.1 (first.has b)
      · exact met c member

theorem PartialBar.exists_finish {b : PartialBar} (has : ∀ c ∈ Column.required, b.Has c)
    (a : Data.Absence) : ∃ whole, b.finish a = .ok whole := by
  obtain ⟨time, known_time⟩ := Option.isSome_iff_exists.mp (has .time (by decide))
  obtain ⟨opening, known_opening⟩ := Option.isSome_iff_exists.mp (has .opening (by decide))
  obtain ⟨high, known_high⟩ := Option.isSome_iff_exists.mp (has .high (by decide))
  obtain ⟨low, known_low⟩ := Option.isSome_iff_exists.mp (has .low (by decide))
  obtain ⟨close, known_close⟩ := Option.isSome_iff_exists.mp (has .close (by decide))
  unfold finish
  rw [known_time, known_opening, known_high, known_low, known_close]
  exact ⟨_, rfl⟩

namespace Bar

variable {columns : List Column} {row : List (List Char)} {names cells : List Csv.Cell}

/-- A row whose numbers can all be read is read. -/
theorem exists_ofRow (header : IsHeader columns) (recovered : IsRow columns row names cells)
    (readable : IsReadable columns row) : ∃ b, ofRow names cells = .ok b := by
  have fine : ∀ p ∈ columns.zip (cellsOf row),
      ∃ change, p.1.read p.2 = .ok change ∧ p.1.Fills change := by
    rintro ⟨c, cell⟩ member
    obtain ⟨i, cs, column, text, rfl⟩ := exists_of_mem_zip member
    exact Column.exists_fills (fun bad => readable i ⟨c, cs, column, text, bad⟩) i
  obtain ⟨changes, read_all, fills⟩ := exists_forall₂_of_mapM fine
  have met := (PartialBar.has_foldl fills {}).2
  rw [List.map_fst_zip (by rw [length_cellsOf, recovered.width])] at met
  obtain ⟨whole, finished⟩ :=
    PartialBar.exists_finish (fun c member => met c (header.required c member)) .named
  refine ⟨whole, ?_⟩
  rw [ofRow_eq header recovered]
  refine (bind_of_ok read_all _).trans ?_
  rw [finished]
  rfl

/-- A row is refused for the first cell that is no number. -/
theorem ofRow_of_bad (header : IsHeader columns) (recovered : IsRow columns row names cells)
    {i : Nat} {cs : List Char} (text : row[i]? = some cs) (bad : IsBadAt columns row i)
    (first : ∀ j < i, ¬ IsBadAt columns row j) :
    ofRow names cells = .error (.ofCell i cs) := by
  obtain ⟨c, cs', column, text', unreadable⟩ := bad
  obtain rfl : cs = cs' := Option.some.inj (text.symm.trans text')
  have place : (columns.zip (cellsOf row))[i]?
      = some (c, { column := i, text := Text.trim cs }) := by
    rw [List.getElem?_zip_eq_some, getElem?_cellsOf, text]
    exact ⟨column, rfl⟩
  obtain ⟨inside, cell⟩ := List.getElem?_eq_some_iff.mp place
  have parts : columns.zip (cellsOf row) = (columns.zip (cellsOf row)).take i
      ++ (c, { column := i, text := Text.trim cs })
        :: (columns.zip (cellsOf row)).drop (i + 1) := by
    rw [← cell, ← List.drop_eq_getElem_cons inside, List.take_append_drop]
  have fine : ∀ p ∈ (columns.zip (cellsOf row)).take i, ∃ change, p.1.read p.2 = .ok change := by
    rintro ⟨d, other⟩ member
    obtain ⟨j, before, found⟩ := List.mem_take_iff_getElem.mp member
    obtain ⟨column, other_cell⟩ :=
      List.getElem?_zip_eq_some.mp (List.getElem?_eq_some_iff.mpr ⟨_, found⟩)
    rw [getElem?_cellsOf, Option.map_eq_some_iff] at other_cell
    obtain ⟨ds, text, rfl⟩ := other_cell
    obtain ⟨change, read_other, -⟩ := Column.exists_fills
      (fun bad => first j (by omega) ⟨d, ds, column, text, bad⟩) j
    exact ⟨change, read_other⟩
  rw [ofRow_eq header recovered, parts,
    mapM_eq_error_of_first fine (Column.read_of_unreadable unreadable i)]
  rfl

end Bar
end PriceSignals
