/-
Module: PriceSignals.Proofs.TableText
Purpose: A table is read as it has been written. Quotes keep the commas, quotes and line ends of a
  cell apart from those of the table, so each record gives back its cells.
Main exports:
  Csv.fill, Csv.Closes, Csv.scan_plainText, Csv.scan_quotedText, Csv.scan_cellText,
  Csv.scan_recordText, Csv.scan_records, Csv.records_of_head
-/
import PriceSignals.Csv.Record

namespace PriceSignals.Csv

/-! ### Cells -/

/-- Puts a text before the first cell of the first record. -/
def fill (cs : List Char) (more : List (List Cell)) : List (List Cell) :=
  cs.foldr (fun c => prepend (.char c)) more

theorem fill_cons (cs : List Char) (cell : Cell) (cells : List Cell) (more : List (List Cell)) :
    fill cs ((cell :: cells) :: more) = ((Glyph.ofChars cs ++ cell) :: cells) :: more := by
  induction cs with
  | nil => rfl
  | cons c cs ih =>
      change prepend (.char c) (fill cs ((cell :: cells) :: more)) = _
      rw [ih]
      rfl

/-- What stands behind a cell: a comma, a line end, or nothing. -/
def Closes (more : List Glyph) : Prop :=
  ∀ g, more.head? = some g → g = .char ',' ∨ isLineEnd g = true

theorem Closes.head_ne_quote {g : Glyph} {rest : List Glyph} (closes : Closes (g :: rest)) :
    (g == .char '"') = false := by
  apply Bool.eq_false_iff.mpr
  intro quote
  obtain rfl := eq_of_beq quote
  obtain comma | line_end := closes _ rfl
  · exact absurd comma (by decide)
  · exact absurd line_end (by decide)

theorem closes_comma (rest : List Glyph) : Closes (.char ',' :: rest) := by
  rintro g ⟨⟩
  exact .inl rfl

theorem closes_newline (rest : List Glyph) : Closes (.char '\n' :: rest) := by
  rintro g ⟨⟩
  exact .inr rfl

theorem stepPlain_of_ordinary {c : Char} (h : needsQuotes [c] = false) :
    stepPlain (.char c) = (.keep, .plain) := by
  simp [needsQuotes] at h
  simp [stepPlain, isLineEnd, h]

/-- A text without special characters is kept as it is. -/
theorem scan_plain {cs : List Char} (h : needsQuotes cs = false) (rest : List Glyph) :
    scan .plain (Glyph.ofChars cs ++ rest) = fill cs (scan .plain rest) := by
  induction cs with
  | nil => rfl
  | cons c cs ih =>
      obtain ⟨ordinary, others⟩ : needsQuotes [c] = false ∧ needsQuotes cs = false := by
        simpa [needsQuotes] using h
      change scan .plain (.char c :: (Glyph.ofChars cs ++ rest)) = _
      rw [scan, step, stepPlain_of_ordinary ordinary]
      dsimp only
      rw [ih others]
      rfl

/-- Within quotes every character is kept, a doubled quote as one. -/
theorem scan_quoted (cs : List Char) (rest : List Glyph) :
    scan .quoted (Glyph.ofChars (doubled cs ++ ['"']) ++ rest) = fill cs (scan .closing rest) := by
  induction cs with
  | nil => rfl
  | cons c cs ih =>
      by_cases quote : c = '"'
      · subst quote
        change prepend (.char '"') (scan .quoted (Glyph.ofChars (doubled cs ++ ['"']) ++ rest)) = _
        rw [ih]
        rfl
      · have kept : doubled (c :: cs) = c :: doubled cs := by simp [doubled, quote]
        rw [kept]
        change scan .quoted (.char c :: (Glyph.ofChars (doubled cs ++ ['"']) ++ rest)) = _
        rw [scan, step, if_neg (by simpa using quote)]
        dsimp only
        rw [ih]
        rfl

/-- Behind its quotes, a cell ends where it would end without them. -/
theorem scan_closing {more : List Glyph} (closes : Closes more) :
    scan .closing more = scan .plain more := by
  cases more with
  | nil => rfl
  | cons g rest =>
      simp [scan, step, closes.head_ne_quote]

/-- A text without special characters is a cell, before a record or within it. Only a line end
before a record is passed over, so an empty cell there needs a comma. -/
theorem scan_plainText {mode : Mode} {cs : List Char} (plain : needsQuotes cs = false)
    {more : List Glyph} (place : mode = .start ∨ mode = .between ∧ more.head? = some (.char ','))
    (closes : Closes more) :
    scan mode (Glyph.ofChars cs ++ more) = fill cs (scan .plain more) := by
  cases cs with
  | nil =>
      change scan mode more = scan .plain more
      obtain rfl | ⟨rfl, comma⟩ := place
      · cases more with
        | nil => rfl
        | cons g rest =>
            simp [scan, step, stepStart, closes.head_ne_quote]
      · obtain _ | ⟨g, rest⟩ := more
        · cases comma
        · obtain rfl := Option.some.inj comma
          rfl
  | cons c cs =>
      have ordinary : ((c ≠ ',' ∧ c ≠ '"') ∧ c ≠ '\n') ∧ c ≠ '\r' := by
        have special := plain
        simp only [needsQuotes, List.any_cons, Bool.or_eq_false_iff, decide_eq_false_iff_not]
          at special
        exact special.1
      have same : step mode (.char c) = step .plain (.char c) := by
        obtain rfl | ⟨rfl, -⟩ := place <;>
          simp [step, stepStart, stepPlain, isLineEnd, ordinary]
      have first : scan mode (.char c :: (Glyph.ofChars cs ++ more))
          = scan .plain (.char c :: (Glyph.ofChars cs ++ more)) := by
        rw [scan, scan, same]
      exact first.trans (scan_plain plain more)

/-- A text in quotes is a cell. -/
theorem scan_quotedText {mode : Mode} (cs : List Char) {more : List Glyph}
    (place : mode = .start ∨ mode = .between) (closes : Closes more) :
    scan mode (Glyph.ofChars ('"' :: doubled cs ++ ['"']) ++ more)
      = fill cs (scan .plain more) := by
  have opened : scan mode (.char '"' :: (Glyph.ofChars (doubled cs ++ ['"']) ++ more))
      = scan .quoted (Glyph.ofChars (doubled cs ++ ['"']) ++ more) := by
    obtain rfl | rfl := place <;> rfl
  exact opened.trans ((scan_quoted cs more).trans (congrArg (fill cs) (scan_closing closes)))

/-- A cell is read as it has been written. -/
theorem scan_cellText {mode : Mode} (cs : List Char) {more : List Glyph}
    (place : mode = .start ∨ mode = .between ∧ more.head? = some (.char ','))
    (closes : Closes more) :
    scan mode (Glyph.ofChars (cellText cs) ++ more) = fill cs (scan .plain more) := by
  unfold cellText
  split
  · exact scan_quotedText cs (place.imp_right And.left) closes
  · rename_i plain
    exact scan_plainText (Bool.eq_false_iff.mpr plain) place closes

/-! ### Records -/

theorem recordText_cons (c d : List Char) (cells : List (List Char)) :
    recordText (c :: d :: cells) = cellText c ++ ',' :: recordText (d :: cells) := by
  simp [recordText, List.intercalate_cons_cons]

theorem recordText_singleton (c : List Char) : recordText [c] = cellText c ++ ['\n'] := by
  simp [recordText]

/-- The end of a cell within a record. -/
theorem scan_plain_comma (rest : List Glyph) :
    scan .plain (.char ',' :: rest) = openCell (scan .start rest) := rfl

/-- The end of a record. -/
theorem scan_plain_newline (rest : List Glyph) :
    scan .plain (.char '\n' :: rest) = [[]] :: scan .between rest := rfl

theorem ofChars_append_cons (cs : List Char) (c : Char) (more : List Char) :
    Glyph.ofChars (cs ++ c :: more) = Glyph.ofChars cs ++ .char c :: Glyph.ofChars more := by
  simp [Glyph.ofChars]

/-- What is left of a record is read cell by cell. -/
theorem scan_start_recordText (c : List Char) (cells : List (List Char)) (rest : List Glyph) :
    scan .start (Glyph.ofChars (recordText (c :: cells)) ++ rest)
      = (c :: cells).map Glyph.ofChars :: scan .between rest := by
  induction cells generalizing c with
  | nil =>
      rw [recordText_singleton, ofChars_append_cons, List.append_assoc]
      change scan .start (Glyph.ofChars (cellText c) ++ .char '\n' :: rest) = _
      rw [scan_cellText c (.inl rfl) (closes_newline rest), scan_plain_newline, fill_cons,
        List.append_nil]
      rfl
  | cons d cells ih =>
      rw [recordText_cons, ofChars_append_cons, List.append_assoc]
      change scan .start (Glyph.ofChars (cellText c)
        ++ .char ',' :: (Glyph.ofChars (recordText (d :: cells)) ++ rest)) = _
      rw [scan_cellText c (.inl rfl) (closes_comma _), scan_plain_comma, ih d]
      change fill c (([] :: (d :: cells).map Glyph.ofChars) :: scan .between rest) = _
      rw [fill_cons, List.append_nil]
      rfl

/-- A record of at least two cells is read cell by cell. A record of a single empty cell would be
an empty line, which is no record. -/
theorem scan_recordText (c d : List Char) (cells : List (List Char)) (rest : List Glyph) :
    scan .between (Glyph.ofChars (recordText (c :: d :: cells)) ++ rest)
      = (c :: d :: cells).map Glyph.ofChars :: scan .between rest := by
  rw [recordText_cons, ofChars_append_cons, List.append_assoc]
  change scan .between (Glyph.ofChars (cellText c)
    ++ .char ',' :: (Glyph.ofChars (recordText (d :: cells)) ++ rest)) = _
  rw [scan_cellText c (.inr ⟨rfl, rfl⟩) (closes_comma _), scan_plain_comma, scan_start_recordText]
  change fill c (([] :: (d :: cells).map Glyph.ofChars) :: scan .between rest) = _
  rw [fill_cons, List.append_nil]
  rfl

/-- A table whose records all have at least two cells is read as its records. -/
theorem scan_records {rows : List (List (List Char))} (h : ∀ row ∈ rows, 2 ≤ row.length) :
    scan .between (Glyph.ofChars (rows.flatMap recordText))
      = rows.map fun row => row.map Glyph.ofChars := by
  induction rows with
  | nil => rfl
  | cons row rows ih =>
      have others := ih fun other member => h other (List.mem_cons_of_mem row member)
      match row, h row List.mem_cons_self with
      | c :: d :: cells, _ =>
          have text : Glyph.ofChars (((c :: d :: cells) :: rows).flatMap recordText)
              = Glyph.ofChars (recordText (c :: d :: cells))
                ++ Glyph.ofChars (rows.flatMap recordText) := by
            simp [Glyph.ofChars]
          rw [text, scan_recordText, others]
          rfl

/-- A text that does not start with a byte order mark is read from its beginning. -/
theorem records_of_head {c : Char} (cs : List Char) (h : c ≠ '\ufeff') :
    records (Glyph.ofChars (c :: cs)) = scan .between (Glyph.ofChars (c :: cs)) := by
  change records (.char c :: Glyph.ofChars cs) = scan .between (.char c :: Glyph.ofChars cs)
  unfold records
  split
  · rename_i mark
    exact absurd (Glyph.char.inj (List.cons.inj mark).1) h
  · rfl

end PriceSignals.Csv
