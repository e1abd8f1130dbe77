/-
Module: PriceSignals.Proofs.JsonFixedPoint
Purpose: The annotated history that is printed in JSON is a history again. It loads as the bars that
  were annotated, so that annotating it once more changes nothing.
Main exports:
  Bar.IsRecovered, Bar.ofJson_annotated, Annotated.read_render, Opened.ofText,
  Composer.loadHistory_render, Command.run_of_loaded, annotated_json_fixed_point
-/
import PriceSignals.Proofs.Columns
import PriceSignals.Proofs.JsonValues
import PriceSignals.Proofs.RunStages
import PriceSignals.Proofs.Utf8

namespace PriceSignals

open Json (Tree Members Items Recovered)

/-! ### Annotated bars as bars -/

/-- All doubles of a bar are finite and are read from JSON as they are written. -/
def Bar.IsRecovered (b : Bar) : Prop := ∀ x ∈ b.floats, Recovered x

instance (b : Bar) : Decidable b.IsRecovered := inferInstanceAs (Decidable (∀ x ∈ b.floats, _))

/-- No derived member has the name of one of the bar. -/
theorem Annotated.not_mem_names_of_mem_derived {a : Annotated} {m : String × Tree}
    (member : m ∈ a.derived) : m.1 ∉ Bar.names := by
  have apart : (Annotated.derivedNames.all fun name => !Bar.names.contains name) = true := by decide
  have named : m.1 ∈ Annotated.derivedNames :=
    a.names_derived.subset (List.mem_map_of_mem member)
  have other := List.all_eq_true.mp apart m.1 named
  intro inside
  rw [List.contains_iff_mem.mpr inside] at other
  cases other

/-- An annotated bar is read as its bar, whatever has been derived: nothing derived is looked at,
not even whether it is a number. -/
theorem Bar.ofJson_annotated {a : Annotated} (recovered : a.bar.IsRecovered) :
    ofJson 1 a.toJson = .ok a.bar := by
  rw [a.toJson_eq]
  exact ofJson_members recovered 1 a.distinct_names
    (fun _ => Annotated.not_mem_names_of_mem_derived) fun _ => a.isWhole_derived

theorem Annotated.isWhole_listToJson (series : List Annotated) :
    (listToJson series).IsWhole := by
  refine Items.isWhole_ofList fun v member => ?_
  obtain ⟨a, -, rfl⟩ := List.mem_map.mp member
  exact a.isWhole_toJson

/-- A printed series is read as its bars, with or without an end of the line behind it. -/
theorem Annotated.read_render {series : List Annotated}
    (recovered : ∀ a ∈ series, a.bar.IsRecovered) {gap : List Char} (blank : Json.IsGap gap) :
    HistoryFormat.json.read (Glyph.ofChars (SeriesFormat.json.render series ++ gap))
      = .ok (series.map (·.bar)) := by
  have spelled : (listToJson series).Spelled (SeriesFormat.json.render series) :=
    Json.Layout.pretty.spelled_print (isWhole_listToJson series)
  have document := Json.Reader.document_spelled spelled Json.isGap_nil blank
  rw [List.nil_append] at document
  have bars : Bar.listOfJson (listToJson series) = .ok (series.map (·.bar)) :=
    Items.list_ofList fun a member => Bar.ofJson_annotated (recovered a member)
  rw [HistoryFormat.read, document]
  refine mapError_eq_ok_iff.mpr ?_
  refine (bind_of_ok bars _).trans ?_
  rfl

/-! ### Files -/

/-- A file that holds a text. -/
def Opened.ofText (cs : List Char) : Opened := .content ((Glyph.ofChars cs).flatMap Glyph.bytes)

theorem Opened.loadHistory_ofText {path : List Char} {format : HistoryFormat}
    (named : HistoryFormat.ofPath? path = some format) (cs : List Char) :
    loadHistory path (.ofText cs) = format.read (Glyph.ofChars cs) := by
  rw [ofText, loadHistory, named]
  dsimp only
  rw [Glyph.ofBytes_flatMap_bytes]

/-- The bars that have been annotated are loaded from what has been printed of them. -/
theorem Composer.loadHistory_render (c : Composer) {bars : List Bar}
    (recovered : ∀ b ∈ bars, b.IsRecovered) {path : List Char}
    (named : HistoryFormat.ofPath? path = some .json) {gap : List Char} (blank : Json.IsGap gap) :
    loadHistory path (.ofText (SeriesFormat.json.render (c.annotate bars) ++ gap)) = .ok bars := by
  have column := c.annotate_bar bars
  have inside : ∀ a ∈ c.annotate bars, a.bar.IsRecovered := fun a member =>
    recovered a.bar (column ▸ List.mem_map_of_mem member)
  rw [Opened.loadHistory_ofText named, Annotated.read_render inside blank, column]

/-! ### Runs -/

namespace Command

/-- The command that prints something about the same bars. -/
def printing (c : Command) (output : Output) : Command := { c with output }

/-- A run whose settings and bars are there prints what is to be said about these. -/
theorem run_of_loaded {openFile : List Char → Opened} {c : Command} {s : Settings}
    {composer : Composer} {bars : List Bar} (given : c.settings openFile = .ok s)
    (made : Composer.make s.indicators = .ok composer)
    (loaded : loadHistory c.input (openFile c.input) = .ok bars) :
    (c.run openFile).result
      = .ok (c.rendering s.thresholds (composer.annotate (c.ordered bars))) := by
  rw [run_of_stages given made loaded, process_printed]

/-- Bars that a command has put in order stay so in a later one, which sorts only if the first one
did. -/
theorem ordered_ordered {c again : Command} (follows : again.sort = true → c.sort = true)
    (bars : List Bar) : again.ordered (c.ordered bars) = c.ordered bars := by
  unfold ordered
  by_cases sorts : again.sort = true
  · rw [if_pos sorts, if_pos (follows sorts), Bar.sort_sort]
  · rw [if_neg sorts]

end Command

/-- Annotating is a fixed point on what it prints in JSON. Whatever composer some settings make, and
whatever it derives, numbers or not: the bars that were annotated are loaded from the printed text
in the same order, each time in the same variant and each volume there or not as before. So a run
that prints JSON can be followed by another one with the same settings, on a file that holds what
has been printed. Whether that one prints the annotated history or its verdict, it ends well and
prints what the first run would have printed had it been asked for that. -/
theorem annotated_json_fixed_point {s : Settings} {composer : Composer}
    (made : Composer.make s.indicators = .ok composer) {bars : List Bar}
    (recovered : ∀ b ∈ bars, b.IsRecovered) :
    (∀ path gap, HistoryFormat.ofPath? path = some .json → Json.IsGap gap →
        loadHistory path (.ofText (SeriesFormat.json.render (composer.annotate bars) ++ gap))
          = .ok bars) ∧
      ∀ (openFile openAgain : List Char → Opened) (c again : Command),
        c.settings openFile = .ok s → loadHistory c.input (openFile c.input) = .ok bars →
        again.settings openAgain = .ok s → HistoryFormat.ofPath? again.input = some .json →
        openAgain again.input
          = .ofText ((c.printing (.series .json)).run openFile).printed →
        (again.sort = true → c.sort = true) →
        ∃ text, ((c.printing again.output).run openFile).result = .ok text ∧
          (again.run openAgain).result = .ok text := by
  refine ⟨fun path gap named blank => composer.loadHistory_render recovered named blank, ?_⟩
  intro openFile openAgain c again given loaded given_again named content follows
  have kept : ∀ b ∈ c.ordered bars, b.IsRecovered := fun b member =>
    recovered b ((c.ordered_perm bars).subset member)
  have printed : ((c.printing (.series .json)).run openFile).printed
      = SeriesFormat.json.render (composer.annotate (c.ordered bars)) ++ ['\n'] := by
    unfold Outcome.printed
    rw [(c.printing (.series .json)).run_of_loaded given made loaded]
    rfl
  have loaded_again : loadHistory again.input (openAgain again.input) = .ok (c.ordered bars) := by
    rw [content, printed]
    exact composer.loadHistory_render kept named (Json.isGap_newLine 0)
  refine ⟨_, (c.printing again.output).run_of_loaded given made loaded, ?_⟩
  rw [again.run_of_loaded given_again made loaded_again, Command.ordered_ordered follows]
  rfl

/-- Bars whose average over two is infinite are loaded from what is printed of them all the same. A
bar with a note, which is not printed, has the same verdict before and after. -/
theorem annotated_json_fixed_point_infinite :
    let s : Settings := { indicators := { smaPeriod := 2 } }
    let high : Bar := ⟨.text "day \"1\"", 1.5e308, 1.5e308, 0.1, 1.5e308, none⟩
    let bar : Bar := ⟨.unix 5, 1, 2, 1, 1.5, none⟩
    let noted :=
      "[\x7b\"time\":5, \"open\":1, \"high\":2, \"low\":1, \"close\":15e-1, \"note\":[]\x7d]"
    let first : Command :=
      { output := .verdict, input := "bars.json".toList, config := none, sort := true }
    let again : Command := { first with input := "again.JSON".toList, sort := false }
    let before (_ : List Char) : Opened := .ofText noted.toList
    let after (_ : List Char) : Opened :=
      .ofText ((first.printing (.series .json)).run before).printed
    (∃ composer, Composer.make s.indicators = .ok composer ∧
        (composer.annotate [high, high]).map (·.sma) = [none, some (1 / 0)] ∧
        loadHistory "a.json".toList
            (.ofText (SeriesFormat.json.render (composer.annotate [high, high]) ++ []))
          = .ok [high, high]) ∧
      loadHistory first.input (before first.input) = .ok [bar] ∧
      ∃ verdict, (first.run before).result = .ok verdict ∧
        (again.run after).result = .ok verdict := by
  intro s high bar noted first again before after
  have made : ∃ composer, Composer.make s.indicators = .ok composer ∧
      (composer.annotate [high, high]).map (·.sma) = [none, some (1 / 0)] := by
    refine ⟨_, Composer.make_eq_ok_iff.mpr ⟨by decide +kernel, rfl⟩, ?_⟩
    decide +kernel
  obtain ⟨composer, made, infinite⟩ := made
  have recovered_high : ∀ b ∈ [high, high], b.IsRecovered := by decide +kernel
  have loaded : loadHistory first.input (before first.input) = .ok [bar] := by
    rw [@Opened.loadHistory_ofText _ .json rfl]
    decide +kernel
  have recovered : ∀ b ∈ [bar], b.IsRecovered := by decide +kernel
  refine ⟨⟨composer, made, infinite, ?_⟩, loaded, ?_⟩
  · exact (annotated_json_fixed_point made recovered_high).1 _ [] rfl Json.isGap_nil
  · exact (annotated_json_fixed_point (s := {}) rfl recovered).2 before after first again rfl loaded
      rfl rfl rfl nofun

end PriceSignals
