/-
Module: PriceSignals.Proofs.TableContent
Purpose: The table of an annotated history loses nothing of it: every record is read cell by cell,
  and from the cells every number, its presence and the date are known again. Only the kind of a
  time is not in its text.
Main exports:
  OptionalCell, Annotated.Recorded, Annotated.SameContent, Annotated.recorded_cells,
  Annotated.sameContent_of_cells_eq, annotated_table_keeps_content
-/
import PriceSignals.Proofs.InstantReadBack
import PriceSignals.Proofs.TableReadBack

namespace PriceSignals

open Decimal (displayText)

/-! ### Cells -/

theorem displayText_ne_nil (x : Float) : displayText x ≠ [] := by
  intro empty
  have read := Decimal.float?_displayText x
  rw [empty] at read
  cases read

/-- Different doubles have different texts. -/
theorem displayText_injective {x y : Float} (same : displayText x = displayText y) : x = y := by
  have read := Decimal.float?_displayText x
  rw [same, Decimal.float?_displayText] at read
  exact (Option.some.inj read).symm

theorem Time.Instant.textChars_ne_nil (t : Time.Instant) (mark : Time.Instant.UtcMark) :
    t.textChars mark ≠ [] := by
  intro empty
  have read := t.readLenient_textChars mark
  rw [empty] at read
  cases read

/-- What a cell tells about a value that may be absent: whether it is there, and how it is read. -/
structure OptionalCell {α : Type} (read : List Char → Option α) (v : Option α)
    (cell : List Char) : Prop where
  empty_iff : cell = [] ↔ v = none
  reads : ∀ x, v = some x → read cell = some x

namespace OptionalCell

variable {α : Type} {read : List Char → Option α}

theorem absent : OptionalCell read none [] where
  empty_iff := ⟨fun _ => rfl, fun _ => rfl⟩
  reads := nofun

theorem present {cell : List Char} {x : α} (filled : cell ≠ []) (reads : read cell = some x) :
    OptionalCell read (some x) cell where
  empty_iff := ⟨fun empty => absurd empty filled, nofun⟩
  reads y same := by
    obtain rfl := Option.some.inj same
    exact reads

/-- One cell cannot tell of two values. -/
theorem unique {cell : List Char} {v w : Option α} (left : OptionalCell read v cell)
    (right : OptionalCell read w cell) : v = w := by
  cases w with
  | none => exact left.empty_iff.mp (right.empty_iff.mpr rfl)
  | some y =>
      cases v with
      | none => exact (right.empty_iff.mp (left.empty_iff.mpr rfl)).symm
      | some x => exact (left.reads x rfl).symm.trans (right.reads y rfl)

end OptionalCell

/-- The cell of a number that may be absent. -/
theorem optionalCell_tells (v : Option Float) :
    OptionalCell Decimal.Numeral.float? v (optionalCell v) := by
  cases v with
  | none => exact .absent
  | some x => exact .present (displayText_ne_nil x) (Decimal.float?_displayText x)

theorem optionalCell_injective {v w : Option Float} (same : optionalCell v = optionalCell w) :
    v = w := by
  have left := optionalCell_tells v
  rw [same] at left
  exact left.unique (optionalCell_tells w)

/-- The instant of a cell, if there is one. -/
def dateOfCell? (cell : List Char) : Option Time.Instant := (Time.readLenient cell).toOption

theorem dateOfCell?_textChars (t : Time.Instant) : dateOfCell? (t.textChars .offset) = some t := by
  rw [dateOfCell?, t.readLenient_textChars]
  rfl

/-! ### Records -/

namespace Annotated

/-- The prices of a bar in the order of their columns. -/
def prices (a : Annotated) : List Float := [a.bar.opening, a.bar.high, a.bar.low, a.bar.close]

/-- The numbers of a bar that may be absent, in the order of their columns. -/
def optionals (a : Annotated) : List (Option Float) :=
  [a.bar.volume, a.sma, a.emaFast, a.emaSlow, a.rsi,
    a.bollinger.map (·.upper), a.bollinger.map (·.middle), a.bollinger.map (·.lower),
    a.macd.map (·.line), a.macd.map (·.signal), a.macd.map (·.histogram)]

/-- What a record tells about a bar: the text of the time, the prices, the numbers that may be
absent, and the date. -/
structure Recorded (a : Annotated) (row : List (List Char)) : Prop where
  width : row.length = 17
  time : row.head? = some a.bar.time.cell
  prices : List.Forall₂ (fun x cell => Decimal.Numeral.float? cell = some x)
    a.prices ((row.drop 1).take 4)
  optionals : List.Forall₂ (OptionalCell Decimal.Numeral.float?) a.optionals
    ((row.drop 5).take 11)
  date : ∀ cell ∈ row.drop 16, OptionalCell dateOfCell? a.date cell

theorem recorded_cells (a : Annotated) : a.Recorded a.cells := by
  constructor
  case width => rfl
  case time => rfl
  case prices =>
    have cells : (a.cells.drop 1).take 4 = a.prices.map displayText := rfl
    rw [cells, List.forall₂_map_right_iff, List.forall₂_same]
    intro x _
    exact Decimal.float?_displayText x
  case optionals =>
    have cells : (a.cells.drop 5).take 11 = a.optionals.map optionalCell := rfl
    rw [cells, List.forall₂_map_right_iff, List.forall₂_same]
    intro v _
    exact optionalCell_tells v
  case date =>
    intro cell member
    unfold cells at member
    cases date : a.date with
    | none =>
        rw [date] at member
        obtain rfl := List.mem_singleton.mp member
        exact .absent
    | some t =>
        rw [date] at member
        obtain rfl := List.mem_singleton.mp member
        exact .present (t.textChars_ne_nil .offset) (dateOfCell?_textChars t)

/-- Two bars with the same numbers, present or absent alike, the same date, and times with the same
text. -/
structure SameContent (a b : Annotated) : Prop where
  time : a.bar.time.cell = b.bar.time.cell
  opening : a.bar.opening = b.bar.opening
  high : a.bar.high = b.bar.high
  low : a.bar.low = b.bar.low
  close : a.bar.close = b.bar.close
  volume : a.bar.volume = b.bar.volume
  sma : a.sma = b.sma
  emaFast : a.emaFast = b.emaFast
  emaSlow : a.emaSlow = b.emaSlow
  rsi : a.rsi = b.rsi
  bollinger : a.bollinger = b.bollinger
  macd : a.macd = b.macd
  date : a.date = b.date

/-- What may be absent is known from three numbers of it. -/
theorem eq_of_three_parts {α : Type} {f g h : α → Float}
    (whole : ∀ a b, f a = f b → g a = g b → h a = h b → a = b) {u v : Option α}
    (first : u.map f = v.map f) (second : u.map g = v.map g) (third : u.map h = v.map h) :
    u = v := by
  cases u with
  | none =>
      cases v with
      | none => rfl
      | some b => cases first
  | some a =>
      cases v with
      | none => cases first
      | some b =>
          have first := Option.some.inj first
          have second := Option.some.inj second
          have third := Option.some.inj third
          exact congrArg some (whole a b first second third)

theorem sameContent_of_cells_eq {a b : Annotated} (same : a.cells = b.cells) : a.SameContent b := by
  have date : a.date = b.date := by
    obtain ⟨cell, last⟩ : ∃ cell, b.cells.drop 16 = [cell] := ⟨_, rfl⟩
    have member : cell ∈ b.cells.drop 16 := by
      rw [last]
      exact List.mem_singleton_self cell
    have right := b.recorded_cells.date cell member
    rw [← same] at member
    exact (a.recorded_cells.date cell member).unique right
  simp only [cells, List.cons.injEq] at same
  obtain ⟨time, opening, high, low, close, volume, sma, emaFast, emaSlow, rsi, upper, middle, lower,
    line, signal, histogram, -⟩ := same
  constructor
  case time => exact time
  case opening => exact displayText_injective opening
  case high => exact displayText_injective high
  case low => exact displayText_injective low
  case close => exact displayText_injective close
  case volume => exact optionalCell_injective volume
  case sma => exact optionalCell_injective sma
  case emaFast => exact optionalCell_injective emaFast
  case emaSlow => exact optionalCell_injective emaSlow
  case rsi => exact optionalCell_injective rsi
  case bollinger =>
    refine eq_of_three_parts ?_ (optionalCell_injective upper) (optionalCell_injective middle)
      (optionalCell_injective lower)
    rintro ⟨_, _, _⟩ ⟨_, _, _⟩ rfl rfl rfl
    rfl
  case macd =>
    refine eq_of_three_parts ?_ (optionalCell_injective line) (optionalCell_injective signal)
      (optionalCell_injective histogram)
    rintro ⟨_, _, _⟩ ⟨_, _, _⟩ rfl rfl rfl
    rfl
  case date => exact date

end Annotated

/-! ### Tables -/

/-- A text is known from its glyphs. -/
theorem Glyph.ofChars_injective {xs ys : List Char} (same : Glyph.ofChars xs = Glyph.ofChars ys) :
    xs = ys := by
  have read := Glyph.chars?_ofChars xs
  rw [same, Glyph.chars?_ofChars] at read
  exact (Option.some.inj read).symm

namespace Annotated

/-- Series with the same table have bars with the same cells. -/
theorem cells_eq_of_listToCsv_eq {series others : List Annotated}
    (same : listToCsv series = listToCsv others) : series.map cells = others.map cells := by
  have records : (series.map cells).map (·.map Glyph.ofChars)
      = (others.map cells).map (·.map Glyph.ofChars) := by
    have read := records_listToCsv series
    rw [same, records_listToCsv, List.cons.injEq] at read
    rw [List.map_map, List.map_map]
    exact read.2.symm
  have rows_injective : Function.Injective fun row : List (List Char) => row.map Glyph.ofChars :=
    List.map_injective_iff.mpr fun _ _ => Glyph.ofChars_injective
  exact List.map_injective_iff.mpr rows_injective records

/-- Series with the same table have the same content. -/
theorem sameContent_of_listToCsv_eq {series others : List Annotated}
    (same : listToCsv series = listToCsv others) : List.Forall₂ SameContent series others := by
  have rows : List.Forall₂ (· = ·) (series.map cells) (others.map cells) := by
    rw [List.forall₂_eq_eq_eq]
    exact cells_eq_of_listToCsv_eq same
  rw [List.forall₂_map_left_iff, List.forall₂_map_right_iff] at rows
  exact rows.imp fun _ _ => sameContent_of_cells_eq

/-- The table of a series is read as its header and as one record for each bar. -/
theorem exists_rows_listToCsv (series : List Annotated) :
    ∃ rows : List (List (List Char)),
      Csv.records (Glyph.ofBytes ((Glyph.ofChars (listToCsv series)).flatMap Glyph.bytes))
          = (columnNames.map String.toList :: rows).map (·.map Glyph.ofChars) ∧
        List.Forall₂ Recorded series rows := by
  refine ⟨series.map cells, ?_, ?_⟩
  · rw [Glyph.ofBytes_flatMap_bytes, records_listToCsv]
    simp only [List.map_cons, List.map_map]
    rfl
  · rw [List.forall₂_map_right_iff, List.forall₂_same]
    exact fun a _ => a.recorded_cells

end Annotated

/-- The table of a series loses nothing and leaves no doubt. Read without removing blanks, it is the
header and one record of seventeen cells for each bar, in their order, whatever characters are in
the times. Each record has the text of the time, a cell for every price that is read as that price,
and for every number that may be absent, and for the date, a cell that is empty exactly where there
is none and that is read as the very same value where there is one. So series with the same table
have the same numbers and dates, present or absent alike. -/
theorem annotated_table_keeps_content (series : List Annotated) :
    (∃ rows : List (List (List Char)),
      Csv.records
            (Glyph.ofBytes ((Glyph.ofChars (Annotated.listToCsv series)).flatMap Glyph.bytes))
          = (Annotated.columnNames.map String.toList :: rows).map (·.map Glyph.ofChars) ∧
        List.Forall₂ Annotated.Recorded series rows) ∧
      ∀ others, Annotated.listToCsv series = Annotated.listToCsv others →
        List.Forall₂ Annotated.SameContent series others :=
  ⟨Annotated.exists_rows_listToCsv series, fun _ => Annotated.sameContent_of_listToCsv_eq⟩

/-- Only the kind of a time is not in its text: a bar at second 5 and one at the text `5` have the
same table, and so the same numbers, among them minus zero, infinity and NaN. The other bar of both
series has a time with a comma, quotes, blanks and ends of lines. -/
theorem annotated_table_keeps_content_mixed :
    let dated (time : BarTime) : Annotated :=
      { bar := ⟨time, 1, -0.0, 1 / 0, 0 / 0, some 0⟩, date := none, sma := some (-0.0),
        emaFast := none, emaSlow := some (0 / 0), rsi := none,
        bollinger := some ⟨1, 0, -1 / 0⟩, macd := none }
    let odd := dated (.text " noon,\r\n\"GMT\" ")
    List.Forall₂ Annotated.SameContent [dated (.unix 5), odd] [dated (.text "5"), odd] := by
  intro dated odd
  have text : (BarTime.unix 5).cell = (BarTime.text "5").cell := by decide +kernel
  have cells : (dated (.unix 5)).cells = (dated (.text "5")).cells := by
    simp only [dated, Annotated.cells, text]
  refine (annotated_table_keeps_content [dated (.unix 5), odd]).2 _ ?_
  simp only [Annotated.listToCsv, List.flatMap_cons, cells]

end PriceSignals
