/-
Module: PriceSignals.Proofs.SettingsOverrides
Purpose: A document replaces exactly the settings that it gives, in whatever order it gives them;
  all others keep their defaults. The settings that result are then checked as a whole.
Main exports:
  Number.toFloat, SettingsTable, SettingName, Overrides, Overrides.given?, Overrides.settings,
  Overrides.Arranges, Overrides.only, Value.fillNamed_eq, Overrides.ofToml_eq,
  document_overrides_given_settings
-/
import PriceSignals.Proofs.FloatNearest
import PriceSignals.Proofs.SettingsChecks
import PriceSignals.Proofs.TomlDocuments
import PriceSignals.Settings.Toml

namespace PriceSignals

open Toml (Block File Number Statement Value)

/-! ### Settings that a document gives -/

/-- A number as a double. A whole number is converted. -/
def Toml.Number.toFloat : Number → Float
  | .integer n => Float.ofInt n.toInt
  | .float x => x

/-- The tables of a document with settings. -/
inductive SettingsTable where
  | indicators
  | thresholds
deriving DecidableEq

/-- The name of a table in its header. -/
def SettingsTable.key : SettingsTable → Toml.Key
  | indicators => "indicators".toList
  | thresholds => "thresholds".toList

/-- The settings that a document can give. -/
inductive SettingName where
  | period (name : PeriodName)
  | multiplier
  | oversold
  | overbought
deriving DecidableEq

namespace SettingName

/-- The table of a setting. -/
def table : SettingName → SettingsTable
  | period _ => .indicators
  | multiplier => .indicators
  | oversold => .thresholds
  | overbought => .thresholds

/-- The name of a setting in its table. -/
def key : SettingName → Toml.Key
  | period name => name.key.toList
  | multiplier => "bollinger_multiplier".toList
  | oversold => "rsi_oversold".toList
  | overbought => "rsi_overbought".toList

/-- All settings that can be given. -/
def all : List SettingName := PeriodName.all.map period ++ [multiplier, oversold, overbought]

theorem mem_all (s : SettingName) : s ∈ all := by
  cases s with
  | period name => exact List.mem_append_left _ (List.mem_map_of_mem name.mem_all)
  | _ => decide

/-- Settings have different names. -/
theorem key_injective : Function.Injective key := by
  have different : (all.map key).Nodup := by decide
  intro s t same
  exact List.inj_on_of_nodup_map different s.mem_all t.mem_all same

/-- The names of settings need no quotes. -/
theorem key_plain (s : SettingName) : s.key ≠ [] ∧ ∀ c ∈ s.key, Toml.inKey c = true := by
  have plain : all.all fun s => s.key ≠ [] && s.key.all Toml.inKey := by decide
  simpa using List.all_eq_true.mp plain s s.mem_all

end SettingName

theorem SettingsTable.key_injective : Function.Injective key := by
  intro t u same
  cases t <;> cases u <;> first | rfl | exact absurd same (by decide)

theorem SettingsTable.key_plain (t : SettingsTable) :
    t.key ≠ [] ∧ ∀ c ∈ t.key, Toml.inKey c = true := by
  have plain : t.key ≠ [] && t.key.all Toml.inKey := by cases t <;> decide
  simpa using plain

/-- Some of the settings: periods of up to 63 bits, and any numbers for the others. -/
structure Overrides where
  period : PeriodName → Option (Fin (2 ^ 63)) := fun _ => none
  multiplier : Option Number := none
  oversold : Option Number := none
  overbought : Option Number := none

namespace Overrides

/-- What is given for a setting. -/
def given? (o : Overrides) : SettingName → Option Number
  | .period name => (o.period name).map fun n => .integer (Int64.ofNat n.val)
  | .multiplier => o.multiplier
  | .oversold => o.oversold
  | .overbought => o.overbought

/-- The period with a name: the given one, or else the default. -/
def word (o : Overrides) (name : PeriodName) : UInt64 :=
  ((o.period name).map fun n => UInt64.ofNat n.val).getD (({} : IndicatorSettings).period name)

/-- A double: the given number, or else the default. -/
def double (v : Option Number) (default : Float) : Float := (v.map Number.toFloat).getD default

/-- The default settings with those replaced that are given. -/
def settings (o : Overrides) : Settings where
  indicators :=
    { smaPeriod := o.word .sma
      rsiPeriod := o.word .rsi
      bollingerPeriod := o.word .bollinger
      bollingerMultiplier := double o.multiplier ({} : IndicatorSettings).bollingerMultiplier
      macdFast := o.word .macdFast
      macdSlow := o.word .macdSlow
      macdSignal := o.word .macdSignal }
  thresholds :=
    { oversold := double o.oversold ({} : Thresholds).oversold
      overbought := double o.overbought ({} : Thresholds).overbought }

/-- Settings of a table, in some order. -/
abbrev Row := List (SettingName × Number)

/-- An order in which the given settings are written: each once, and in its table. -/
structure Arranges (o : Overrides) (plan : List (SettingsTable × Row)) : Prop where
  tables : (plan.map Prod.fst).Nodup
  once : ∀ p ∈ plan, (p.2.map Prod.fst).Nodup
  placed : ∀ p ∈ plan, ∀ e ∈ p.2, e.1.table = p.1 ∧ o.given? e.1 = some e.2
  complete : ∀ s v, o.given? s = some v → ∃ p ∈ plan, (s, v) ∈ p.2

/-- A table as it is written. -/
def block (p : SettingsTable × Row) : Block where
  name := p.1.key
  entries := p.2.map fun e => (e.1.key, e.2)

/-- The statements of tables in an order. -/
def statements (plan : List (SettingsTable × Row)) : List Statement :=
  (plan.map block).flatMap Block.said

/-- Only some of the given settings. -/
def only (o : Overrides) (keep : SettingName → Bool) : Overrides where
  period name := if keep (.period name) then o.period name else none
  multiplier := if keep .multiplier then o.multiplier else none
  oversold := if keep .oversold then o.oversold else none
  overbought := if keep .overbought then o.overbought else none

end Overrides

/-! ### Records from tables -/

/-- A field is filled from a value. -/
def Fills {σ : Type} (slots : List (Data.Slot σ Value Data.Fault)) (key : Toml.Key) (v : Value)
    (before after : σ) : Prop :=
  ∃ slot, Data.Slot.find? slots (String.ofList key) = some slot ∧ slot.fill before v = .ok after

/-- A record is filled field by field. -/
theorem Toml.Value.fillNamed_eq {σ ι : Type} {slots : List (Data.Slot σ Value Data.Fault)}
    (key : ι → Toml.Key) (state : List ι → σ) {given : List (ι × Value)}
    (step : ∀ e ∈ given, ∀ seen, Fills slots (key e.1) e.2 (state seen) (state (e.1 :: seen)))
    (seen : List ι) :
    Value.fillNamed slots (state seen) (given.map fun e => (key e.1, e.2))
      = .ok (state ((given.map Prod.fst).reverse ++ seen)) := by
  induction given generalizing seen with
  | nil => rfl
  | cons e given ih =>
      obtain ⟨slot, found, filled⟩ := step e List.mem_cons_self seen
      have others := ih (fun other member => step other (List.mem_cons_of_mem e member))
        (e.1 :: seen)
      unfold Value.fillNamed at others ⊢
      rw [List.map_cons, List.foldlM_cons, found]
      refine (bind_of_ok filled _).trans ?_
      refine others.trans ?_
      rw [List.map_cons, List.reverse_cons, List.append_assoc]
      rfl

namespace Overrides

variable {o : Overrides}

/-- A period is read as it is given. -/
theorem wordOfToml_given (n : Fin (2 ^ 63)) :
    wordOfToml (Number.integer (Int64.ofNat n.val)).value = .ok (UInt64.ofNat n.val) := by
  have whole : (Int64.ofNat n.val).toInt = n.val := Int64.toInt_ofNat_of_lt n.isLt
  dsimp only [Number.value]
  rw [whole]
  rfl

/-- A number is read as the double it is converted to. -/
theorem readFloat_value (v : Number) : v.value.readFloat = .ok v.toFloat := by
  cases v <;> rfl

/-- A setting of the indicators is filled in. -/
theorem fills_indicators {s : SettingName} {v : Number} (given : o.given? s = some v)
    (inside : s.table = .indicators) (seen : List SettingName) :
    Fills (IndicatorSettings.slots wordOfToml Value.readFloat) s.key v.value
      (o.only (· ∈ seen)).settings.indicators (o.only (· ∈ s :: seen)).settings.indicators := by
  cases s with
  | period name =>
      obtain ⟨n, same, rfl⟩ := Option.map_eq_some_iff.mp given
      have read := wordOfToml_given n
      cases name
      all_goals
        refine ⟨_, rfl, (bind_of_ok read _).trans (congrArg Except.ok ?_)⟩
        simp [settings, only, word, same]
  | multiplier =>
      have same : o.multiplier = some v := given
      refine ⟨_, rfl, (bind_of_ok (readFloat_value v) _).trans (congrArg Except.ok ?_)⟩
      simp [settings, only, word, double, same]
  | oversold => cases inside
  | overbought => cases inside

/-- A threshold is filled in. -/
theorem fills_thresholds {s : SettingName} {v : Number} (given : o.given? s = some v)
    (inside : s.table = .thresholds) (seen : List SettingName) :
    Fills (Thresholds.slots Value.readFloat) s.key v.value
      (o.only (· ∈ seen)).settings.thresholds (o.only (· ∈ s :: seen)).settings.thresholds := by
  cases s with
  | period name => cases inside
  | multiplier => cases inside
  | oversold =>
      have same : o.oversold = some v := given
      refine ⟨_, rfl, (bind_of_ok (readFloat_value v) _).trans (congrArg Except.ok ?_)⟩
      simp [settings, only, double, same]
  | overbought =>
      have same : o.overbought = some v := given
      refine ⟨_, rfl, (bind_of_ok (readFloat_value v) _).trans (congrArg Except.ok ?_)⟩
      simp [settings, only, double, same]

/-! ### What is left out -/

/-- Nothing is lost where all that is given is kept. -/
theorem ite_of_kept {α : Type} {v : Option α} {keep : Bool} (kept : v.isSome = true → keep = true) :
    (if keep then v else none) = v := by
  cases v with
  | none => exact ite_self none
  | some a => exact if_pos (kept rfl)

/-- A table is whole if all that is given for it is kept. -/
theorem indicators_only {keep : SettingName → Bool}
    (kept : ∀ s, s.table = .indicators → (o.given? s).isSome = true → keep s = true) :
    (o.only keep).settings.indicators = o.settings.indicators := by
  have period (name : PeriodName) : (o.only keep).period name = o.period name :=
    ite_of_kept fun given => kept (.period name) rfl (by simpa [given?] using given)
  have multiplier : (o.only keep).multiplier = o.multiplier := ite_of_kept (kept .multiplier rfl)
  simp only [settings, word, period, multiplier]

theorem thresholds_only {keep : SettingName → Bool}
    (kept : ∀ s, s.table = .thresholds → (o.given? s).isSome = true → keep s = true) :
    (o.only keep).settings.thresholds = o.settings.thresholds := by
  have oversold : (o.only keep).oversold = o.oversold := ite_of_kept (kept .oversold rfl)
  have overbought : (o.only keep).overbought = o.overbought := ite_of_kept (kept .overbought rfl)
  simp only [settings, oversold, overbought]

/-- A table depends only on what is kept for it. -/
theorem indicators_congr {keep keep' : SettingName → Bool}
    (same : ∀ s, s.table = .indicators → keep s = keep' s) :
    (o.only keep).settings.indicators = (o.only keep').settings.indicators := by
  have period (name : PeriodName) := same (.period name) rfl
  simp only [settings, only, word, period, same .multiplier rfl]

theorem thresholds_congr {keep keep' : SettingName → Bool}
    (same : ∀ s, s.table = .thresholds → keep s = keep' s) :
    (o.only keep).settings.thresholds = (o.only keep').settings.thresholds := by
  simp only [settings, only, same .oversold rfl, same .overbought rfl]

/-! ### Tables -/

/-- A table as it is read. -/
def tableOf (row : Row) : Value := .table .header (row.map fun e => (e.1.key, e.2.value))

/-- A record is filled from a table setting by setting. -/
theorem readRecord_tableOf {σ : Type} {slots : List (Data.Slot σ Value Data.Fault)}
    (state : List SettingName → σ) {row : Row}
    (step : ∀ e ∈ row, ∀ seen, Fills slots e.1.key e.2.value (state seen) (state (e.1 :: seen)))
    (type : String) :
    (tableOf row).readRecord type slots (state []) = .ok (state (row.map Prod.fst).reverse) := by
  have filled := Toml.Value.fillNamed_eq SettingName.key state
    (List.forall_mem_map.mpr step : ∀ e ∈ row.map fun e => (e.1, e.2.value), _) []
  rw [List.map_map, List.map_map, List.append_nil] at filled
  exact filled

/-- The settings of a table, and no others, stand in a row. -/
structure IsRowOf (o : Overrides) (t : SettingsTable) (row : Row) : Prop where
  placed : ∀ e ∈ row, e.1.table = t ∧ o.given? e.1 = some e.2
  complete : ∀ s v, s.table = t → o.given? s = some v → (s, v) ∈ row

/-- All that is given for a table stands in its row. -/
theorem IsRowOf.kept {t : SettingsTable} {row : Row} (whole : o.IsRowOf t row) {s : SettingName}
    (inside : s.table = t) (given : (o.given? s).isSome = true) :
    decide (s ∈ (row.map Prod.fst).reverse) = true := by
  obtain ⟨v, given⟩ := Option.isSome_iff_exists.mp given
  apply decide_eq_true
  rw [List.mem_reverse]
  exact List.mem_map_of_mem (whole.complete s v inside given)

theorem ofToml_indicators {row : Row} (whole : o.IsRowOf .indicators row) :
    IndicatorSettings.ofToml (tableOf row) = .ok o.settings.indicators := by
  have read := readRecord_tableOf (fun seen => (o.only (· ∈ seen)).settings.indicators)
    (fun e member seen => fills_indicators (whole.placed e member).2 (whole.placed e member).1 seen)
    "struct IndicatorConfig"
  refine read.trans (congrArg Except.ok ?_)
  exact indicators_only fun s => whole.kept

theorem ofToml_thresholds {row : Row} (whole : o.IsRowOf .thresholds row) :
    Thresholds.ofToml (tableOf row) = .ok o.settings.thresholds := by
  have read := readRecord_tableOf (fun seen => (o.only (· ∈ seen)).settings.thresholds)
    (fun e member seen => fills_thresholds (whole.placed e member).2 (whole.placed e member).1 seen)
    "struct SignalThresholds"
  refine read.trans (congrArg Except.ok ?_)
  exact thresholds_only fun s => whole.kept

/-! ### Documents -/

/-- The settings of a table are filled in. -/
theorem fills_table {t : SettingsTable} {row : Row} (whole : o.IsRowOf t row)
    (seen : List SettingsTable) :
    Fills (Settings.slots IndicatorSettings.ofToml Thresholds.ofToml) t.key (tableOf row)
      (o.only (·.table ∈ seen)).settings (o.only (·.table ∈ t :: seen)).settings := by
  cases t with
  | indicators =>
      refine ⟨_, rfl, (bind_of_ok (ofToml_indicators whole) _).trans (congrArg Except.ok ?_)⟩
      apply congrArg₂ Settings.mk
      · exact (indicators_only fun s inside _ => by simp [inside]).symm
      · exact thresholds_congr fun s inside => by simp [inside]
  | thresholds =>
      refine ⟨_, rfl, (bind_of_ok (ofToml_thresholds whole) _).trans (congrArg Except.ok ?_)⟩
      apply congrArg₂ Settings.mk
      · exact indicators_congr fun s inside => by simp [inside]
      · exact (thresholds_only fun s inside _ => by simp [inside]).symm

/-- What is given for a table stands in its row, if the table is written. -/
theorem Arranges.isRowOf {plan : List (SettingsTable × Row)} (arranged : o.Arranges plan)
    {p : SettingsTable × Row} (member : p ∈ plan) : o.IsRowOf p.1 p.2 where
  placed := arranged.placed p member
  complete s v inside given := by
    obtain ⟨q, other, found⟩ := arranged.complete s v given
    have same : q.1 = p.1 := ((arranged.placed q other _ found).1).symm.trans inside
    obtain rfl := List.inj_on_of_nodup_map arranged.tables other member same
    exact found

/-- The tables of a document are read as the default settings with the given ones replaced. -/
theorem ofToml_eq {plan : List (SettingsTable × Row)} (arranged : o.Arranges plan) :
    Settings.ofToml (.table .header (plan.map fun p => (p.1.key, tableOf p.2)))
      = .ok o.settings := by
  have step : ∀ e ∈ plan.map fun p => (p.1, tableOf p.2), ∀ seen,
      Fills (Settings.slots IndicatorSettings.ofToml Thresholds.ofToml) e.1.key e.2
        (o.only (·.table ∈ seen)).settings (o.only (·.table ∈ e.1 :: seen)).settings := by
    intro e member
    obtain ⟨p, inside, rfl⟩ := List.mem_map.mp member
    exact fills_table (arranged.isRowOf inside)
  have filled := Toml.Value.fillNamed_eq SettingsTable.key
    (fun seen => (o.only (·.table ∈ seen)).settings) step []
  rw [List.map_map, List.map_map, List.append_nil] at filled
  refine Eq.trans filled (congrArg Except.ok ?_)
  have kept : ∀ s, (o.given? s).isSome = true →
      decide (s.table ∈ (plan.map (Prod.fst ∘ fun p => (p.1, tableOf p.2))).reverse) = true := by
    intro s given
    obtain ⟨v, given⟩ := Option.isSome_iff_exists.mp given
    obtain ⟨p, member, found⟩ := arranged.complete s v given
    apply decide_eq_true
    rw [List.mem_reverse, (arranged.placed p member _ found).1]
    exact List.mem_map_of_mem member
  apply congrArg₂ Settings.mk
  · exact indicators_only fun s _ => kept s
  · exact thresholds_only fun s _ => kept s

/-- A document of tables in an order is read as those tables. -/
theorem document_eq {plan : List (SettingsTable × Row)} (arranged : o.Arranges plan)
    {text : List Char} (file : File (statements plan) text) :
    Toml.document text
      = some (.table .header (plan.map fun p => (p.1.key, tableOf p.2))) := by
  have tables : ((plan.map block).map Block.name).Nodup := by
    rw [List.map_map]
    have different := arranged.tables.map SettingsTable.key_injective
    rwa [List.map_map] at different
  have keys : ∀ s ∈ plan.map block, (s.entries.map Prod.fst).Nodup := by
    intro s member
    obtain ⟨p, inside, rfl⟩ := List.mem_map.mp member
    have different := (arranged.once p inside).map SettingName.key_injective
    rw [List.map_map] at different
    simpa [block, Function.comp_def] using different
  rw [file.document_blocks tables keys, List.map_map]
  simp [Function.comp_def, Block.outer, Block.inner, block, tableOf]

/-- The document is checked as a whole. -/
theorem read_eq {plan : List (SettingsTable × Row)} (arranged : o.Arranges plan) {text : List Char}
    (file : File (statements plan) text) :
    Settings.read text = o.settings.checked.mapError .settings := by
  unfold Settings.read Toml.decode
  rw [document_eq arranged file]
  dsimp only
  rw [ofToml_eq arranged]
  rfl

/-- What is given for a table, in the order of all settings. -/
def rowOf (o : Overrides) (t : SettingsTable) : Row :=
  (SettingName.all.filter (·.table = t)).filterMap fun s => (o.given? s).map (s, ·)

theorem mem_rowOf {t : SettingsTable} {s : SettingName} {v : Number} :
    (s, v) ∈ o.rowOf t ↔ s.table = t ∧ o.given? s = some v := by
  simp [rowOf, s.mem_all]

/-- No setting stands in a row twice. -/
theorem nodup_rowOf (t : SettingsTable) : ((o.rowOf t).map Prod.fst).Nodup := by
  have listed : SettingName.all.Nodup := by decide
  rw [rowOf, List.map_filterMap]
  apply (listed.filter _).filterMap
  intro s s' met found found'
  obtain ⟨e, given, rfl⟩ := Option.map_eq_some_iff.mp found
  obtain ⟨e', given', same⟩ := Option.map_eq_some_iff.mp found'
  obtain ⟨v, -, rfl⟩ := Option.map_eq_some_iff.mp given
  obtain ⟨v', -, rfl⟩ := Option.map_eq_some_iff.mp given'
  exact same.symm

/-- Whatever is given can be written in some order. -/
theorem exists_arranges (o : Overrides) : ∃ plan, o.Arranges plan := by
  let tables : List SettingsTable := [.indicators, .thresholds]
  refine ⟨tables.map fun t => (t, o.rowOf t), (by decide : tables.Nodup), ?_, ?_, ?_⟩
  · intro p member
    obtain ⟨t, -, rfl⟩ := List.mem_map.mp member
    exact nodup_rowOf t
  · intro p member e inside
    obtain ⟨t, -, rfl⟩ := List.mem_map.mp member
    exact mem_rowOf.mp inside
  · intro s v given
    have known : s.table ∈ tables := by cases s.table <;> decide
    exact ⟨_, List.mem_map_of_mem known, mem_rowOf.mpr ⟨rfl, given⟩⟩

/-- Whatever the order, there is a document with it. -/
theorem exists_file (plan : List (SettingsTable × Row)) :
    ∃ text, File (statements plan) text := by
  apply File.exists
  intro s member
  obtain ⟨b, inside, said⟩ := List.mem_flatMap.mp member
  obtain ⟨p, -, rfl⟩ := List.mem_map.mp inside
  obtain rfl | said := List.mem_cons.mp said
  · exact p.1.key_plain
  · obtain ⟨e, inside, rfl⟩ := List.mem_map.mp said
    obtain ⟨e, -, rfl⟩ := List.mem_map.mp inside
    exact e.1.key_plain

end Overrides

/-! ### Checked settings -/

namespace Settings

variable {s : Settings}

theorem checked_eq_ok_iff : s.checked = .ok s ↔ s.IsSound := by
  rw [← fault?_eq_none_iff_isSound, checked]
  cases s.fault? with
  | none => exact iff_of_true rfl rfl
  | some fault => exact iff_of_false nofun nofun

theorem checked_of_firstFault {fault : SettingsFault} (first : s.FirstFault fault) :
    s.checked = .error fault := by
  rw [checked, fault?_eq_some_iff.mpr first]

end Settings

/-- A document replaces exactly the settings that it gives, in whatever order the tables and their
keys stand, however the numbers are spelled and the lines laid out; all others keep their defaults.
It is accepted exactly where the whole is sound: where all periods are at least one, the multiplier
is finite and not below zero, and the thresholds ascend within 0 to 100. Otherwise the first thing
that is wrong is told, by its name or with its numbers. A whole number stands for the double nearest
to it. -/
theorem document_overrides_given_settings (o : Overrides) :
    (∃ plan, o.Arranges plan) ∧
      (∀ plan, o.Arranges plan → (∃ text, File (Overrides.statements plan) text) ∧
        ∀ text, File (Overrides.statements plan) text →
          (Settings.read text = .ok o.settings ↔ o.settings.IsSound) ∧
            (¬ o.settings.IsSound → ∃ fault, o.settings.FirstFault fault) ∧
            ∀ fault, o.settings.FirstFault fault →
              Settings.read text = .error (.settings fault)) ∧
      ∀ n : Int64, Binary64.IsNearest (Number.integer n).toFloat n.toInt := by
  refine ⟨o.exists_arranges, fun plan arranged => ⟨Overrides.exists_file plan, ?_⟩, fun n => ?_⟩
  · intro text file
    have read := Overrides.read_eq arranged file
    refine ⟨?_, Settings.FirstFault.exists, fun fault first => ?_⟩
    · rw [read, mapError_eq_ok_iff, Settings.checked_eq_ok_iff]
    · rw [read, Settings.checked_of_firstFault first]
      rfl
  · apply Binary64.isNearest_ofInt
    have least := n.minValue_le_toInt
    have most := n.toInt_le
    have least_eq : Int64.minValue.toInt = -2 ^ 63 := rfl
    have most_eq : Int64.maxValue.toInt = 2 ^ 63 - 1 := rfl
    unfold UInt64.size
    omega

/-- A document with a mark, comments, blanks, quotes and both kinds of line ends, whose tables and
keys stand in no usual order: two periods and a threshold are replaced. Where only the lower
threshold is given, it is compared with the default of the upper one. -/
theorem document_overrides_given_settings_shuffled :
    Settings.read ("\ufeff# late\r\n[thresholds]\n'rsi_oversold' = 2_0 # shorter\n\n".toList
          ++ " [ \"indicators\" ]\r\nmacd_slow=0x28\nsma_period\t= +5".toList)
        = .ok { indicators := { smaPeriod := 5, macdSlow := 40 }
                thresholds := { oversold := 20 } } ∧
      Settings.read "[thresholds]\nrsi_oversold = 8e1\n".toList
        = .error (.settings (.thresholds 80 70)) := by
  have blanks (text : String) (blank : text.toList.all Toml.isBlank = true) :
      Toml.IsBlanks text.toList :=
    List.all_eq_true.mp blank
  have bare (name : String) (filled : name.toList ≠ [])
      (plain : name.toList.all Toml.inKey = true) :
      Toml.SpelledKey name.toList name.toList :=
    .bare filled (List.all_eq_true.mp plain)
  have nothing : Toml.IsBlanks [] := nofun
  have thresholds : Toml.Line (some (.header "thresholds".toList)) "[thresholds]".toList :=
    .header nothing nothing (bare "thresholds" (by decide) rfl) nothing (.plain nothing)
  constructor
  · let o : Overrides :=
      { period := fun | .sma => some 5 | .macdSlow => some 40 | _ => none
        oversold := some (.integer 20) }
    let plan : List (SettingsTable × Overrides.Row) :=
      [(.thresholds, [(.oversold, .integer 20)]),
        (.indicators, [(.period .macdSlow, .integer 40), (.period .sma, .integer 5)])]
    have arranged : o.Arranges plan := by
      refine ⟨by decide, by decide, by decide +kernel, ?_⟩
      intro s v given
      cases s with
      | period name => cases name <;> simp_all [plan, o, Overrides.given?]
      | _ => simp_all [plan, o, Overrides.given?]
    have comment : Toml.Line none "# late".toList :=
      .empty (@Toml.Trail.comment [] " late".toList nothing (List.all_eq_true.mp rfl))
    have twenty : Toml.SpelledRow Digit.ofChar? _ "2_0".toList := .gap rfl (.last rfl)
    have forty : Toml.SpelledRow (Toml.digitBelow? 16) _ "28".toList := .next rfl (.last rfl)
    have five : Toml.SpelledRow Digit.ofChar? _ "5".toList := .last rfl
    have oversold : Toml.Line (some (.entry "rsi_oversold".toList (.integer 20)))
        "'rsi_oversold' = 2_0 # shorter".toList := by
      have key : Toml.SpelledKey "rsi_oversold".toList "'rsi_oversold'".toList :=
        .literal (by simp [Toml.inText])
      have number : Number.Spelled (.integer 20) "2_0".toList :=
        .decimal .none (.row (by decide) twenty) rfl
      have shorter : Toml.Trail " # shorter".toList :=
        @Toml.Trail.comment " ".toList " shorter".toList (blanks " " rfl) (List.all_eq_true.mp rfl)
      exact .entry nothing key (blanks " " rfl) (blanks " " rfl) number shorter
    have indicators : Toml.Line (some (.header "indicators".toList))
        " [ \"indicators\" ]".toList := by
      have key : Toml.SpelledKey "indicators".toList "\"indicators\"".toList :=
        .basic (by simp [Toml.inText])
      exact .header (blanks " " rfl) (blanks " " rfl) key (blanks " " rfl) (.plain nothing)
    have macdSlow : Toml.Line (some (.entry "macd_slow".toList (.integer 40)))
        "macd_slow=0x28".toList := by
      have number : Number.Spelled (.integer 40) "0x28".toList :=
        .based (by decide) forty rfl
      exact .entry nothing (bare "macd_slow" (by decide) rfl) nothing nothing number
        (.plain nothing)
    have smaPeriod : Toml.Line (some (.entry "sma_period".toList (.integer 5)))
        "sma_period\t= +5".toList := by
      have number : Number.Spelled (.integer 5) "+5".toList :=
        .decimal .plus (.row (by decide) five) rfl
      exact .entry nothing (bare "sma_period" (by decide) rfl) (blanks "\t" rfl) (blanks " " rfl)
        number (.plain nothing)
    have empty : Toml.Line none [] := .empty (.plain nothing)
    have file := Toml.File.marked <| .next comment .returnFeed <| .next thresholds .feed <|
      .next oversold .feed <| .next empty .feed <| .next indicators .returnFeed <|
      .next macdSlow .feed <| .last smaPeriod
    have file : File (Overrides.statements plan) _ := file
    have sound : o.settings.IsSound := by decide +kernel
    have read := (((document_overrides_given_settings o).2.1 plan arranged).2 _ file).1.mpr sound
    have same : o.settings = { indicators := { smaPeriod := 5, macdSlow := 40 }
                               thresholds := { oversold := 20 } } := by
      have converted : Float.ofInt 20 = 20 := by decide +kernel
      exact congrArg₂ Settings.mk rfl (congrArg₂ Thresholds.mk converted rfl)
    rw [same] at read
    exact (congrArg (fun text => Settings.read text = _) (by decide)).mp read
  · let eighty : Decimal.Literal := ⟨false, [8], [], some ⟨false, [1]⟩⟩
    let o : Overrides := { oversold := some (.float eighty.nearest) }
    let plan : List (SettingsTable × Overrides.Row) :=
      [(.thresholds, [(.oversold, .float eighty.nearest)])]
    have arranged : o.Arranges plan := by
      refine ⟨by decide, by decide +kernel, by decide +kernel, ?_⟩
      intro s v given
      cases s with
      | period name => simp [o, Overrides.given?] at given
      | _ => simp_all [plan, o, Overrides.given?]
    have nearest : eighty.nearest = 80 := by decide +kernel
    have oversold : Toml.Line (some (.entry "rsi_oversold".toList (.float eighty.nearest)))
        "rsi_oversold = 8e1".toList := by
      have eight : Toml.SpelledRow Digit.ofChar? [8] "8".toList := .last rfl
      have one : Toml.SpelledRow Digit.ofChar? [1] "1".toList := .last rfl
      have number : Number.Spelled (.float eighty.nearest) "8e1".toList :=
        @Number.Spelled.pointed eighty _ _ _ _ .none (.row (by decide) eight) .none
          (.power (.inl rfl) .none one) (.inr (by decide)) (by decide +kernel)
      exact .entry nothing (bare "rsi_oversold" (by decide) rfl) (blanks " " rfl) (blanks " " rfl)
        number (.plain nothing)
    have file := Toml.File.unmarked <| .next thresholds .feed <| .next oversold .feed <|
      .last (.empty (.plain nothing))
    have file : File (Overrides.statements plan) _ := file
    have unsound : ¬ o.settings.HasThresholds := by decide +kernel
    have periods : ∀ name, o.settings.HasPeriod name := by intro name; cases name <;> decide
    have multiplier : o.settings.HasMultiplier := by decide +kernel
    have refused := (((document_overrides_given_settings o).2.1 plan arranged).2 _ file).2.2 _
      (.thresholds periods multiplier unsound)
    have given : o.settings.thresholds.oversold = 80 := nearest
    rw [given] at refused
    exact (congrArg (fun text => Settings.read text = _) (by decide)).mp refused

end PriceSignals
