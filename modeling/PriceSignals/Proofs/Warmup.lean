/-
Module: PriceSignals.Proofs.Warmup
Purpose: The warm-up of some settings is exact. It is the place of the first bar with every
  indicator, and a command warns of a short history exactly where no bar has them all.
Main exports:
  Annotated.Complete, Annotated.PresentAt, Annotated.PresentAt.complete_iff, Composer.presentAt,
  Composer.length_le_warmup_iff, Command.warns_iff, ExactLookbacks, warmup_exact
-/
import PriceSignals.Command
import PriceSignals.Proofs.Columns
import PriceSignals.Proofs.Presence

namespace PriceSignals

/-! ### Annotated bars -/

namespace Annotated

/-- Everything has been derived for a bar. -/
structure Complete (a : Annotated) : Prop where
  sma : a.sma.isSome = true
  rsi : a.rsi.isSome = true
  bollinger : a.bollinger.isSome = true
  emaFast : a.emaFast.isSome = true
  emaSlow : a.emaSlow.isSome = true
  macd : a.macd.isSome = true

/-- What has been derived for the bar at a place of a history, under some settings. -/
structure PresentAt (s : IndicatorSettings) (i : Nat) (a : Annotated) : Prop where
  sma : a.sma.isSome = true ↔ s.smaPeriod.toNat ≤ i + 1
  rsi : a.rsi.isSome = true ↔ s.rsiPeriod.toNat ≤ i
  bollinger : a.bollinger.isSome = true ↔ 1 ≤ i ∨ s.bollingerPeriod = 1
  emaFast : a.emaFast.isSome = true
  emaSlow : a.emaSlow.isSome = true
  macd : a.macd.isSome = true

end Annotated

theorem IndicatorSettings.bollingerPeriod_eq_one_iff (s : IndicatorSettings) :
    s.bollingerPeriod = 1 ↔ s.bollingerPeriod.toNat = 1 := by
  constructor
  · intro one
    rw [one]
    rfl
  · intro one
    exact UInt64.toNat_inj.mp one

/-- The warm-up is the greatest of the places at which the indicators begin. -/
theorem Annotated.PresentAt.complete_iff {s : IndicatorSettings} {i : Nat} {a : Annotated}
    (present : a.PresentAt s i) (valid : s.fault? = none) : a.Complete ↔ s.warmup ≤ i := by
  have positive : 0 < s.bollingerPeriod.toNat := IndicatorSettings.period_pos valid .bollinger
  have bands := present.bollinger
  rw [s.bollingerPeriod_eq_one_iff] at bands
  unfold IndicatorSettings.warmup
  constructor
  · intro complete
    have sma := present.sma.mp complete.sma
    have rsi := present.rsi.mp complete.rsi
    have bollinger := bands.mp complete.bollinger
    omega
  · intro warm
    constructor
    case sma => exact present.sma.mpr (by omega)
    case rsi => exact present.rsi.mpr (by omega)
    case bollinger => exact bands.mpr (by omega)
    case emaFast => exact present.emaFast
    case emaSlow => exact present.emaSlow
    case macd => exact present.macd

/-! ### Annotated histories -/

namespace Composer

variable {s : IndicatorSettings} (valid : s.fault? = none)

/-- An indicator is present in a record from the place on at which its column begins. -/
theorem isSome_of_column {α : Type} {field : Annotated → Option α} {series : List Annotated}
    {values : List (Option α)} {n i : Nat} {a : Annotated} (column : series.map field = values)
    (begins : Series.BeginsAt values n) (found : series[i]? = some a) :
    (field a).isSome = true ↔ n ≤ i := by
  apply begins
  rw [← column, List.getElem?_map, found, Option.map_some]

/-- Each indicator is present from its own lookback on. -/
theorem presentAt {bars : List Bar} {i : Nat} {a : Annotated}
    (found : ((ofFaultless s valid).annotate bars)[i]? = some a) : a.PresentAt s i := by
  generalize same : ofFaultless s valid = c at found
  have sma := isSome_of_column (c.annotate_sma bars) (c.sma.beginsAt_values _) found
  have rsi := isSome_of_column (c.annotate_rsi bars) (c.rsi.beginsAt_values _) found
  have bollinger :=
    isSome_of_column (c.annotate_bollinger bars) (c.bollinger.beginsAt_values _) found
  have fast := isSome_of_column (c.annotate_emaFast bars) (c.emaFast.beginsAt_values _) found
  have slow := isSome_of_column (c.annotate_emaSlow bars) (c.emaSlow.beginsAt_values _) found
  have macd := isSome_of_column (c.annotate_macd bars) (c.macd.beginsAt_valuesFrom _ _) found
  have sma_lookback : c.sma.lookback = s.smaPeriod.toNat - 1 := by rw [← same]; rfl
  have rsi_lookback : c.rsi.lookback = s.rsiPeriod.toNat := by rw [← same]; rfl
  have bollinger_lookback : c.bollinger.lookback = min s.bollingerPeriod.toNat 2 - 1 := by
    rw [← same]; rfl
  have positive : 0 < s.bollingerPeriod.toNat := IndicatorSettings.period_pos valid .bollinger
  constructor
  case sma =>
    rw [sma, sma_lookback]
    omega
  case rsi => rw [rsi, rsi_lookback]
  case bollinger =>
    rw [bollinger, bollinger_lookback, s.bollingerPeriod_eq_one_iff]
    omega
  case emaFast => exact fast.mpr (Nat.zero_le i)
  case emaSlow => exact slow.mpr (Nat.zero_le i)
  case macd => exact macd.mpr (Nat.zero_le i)

/-- A history ends within the warm-up exactly where no record of it is complete. -/
theorem length_le_warmup_iff (bars : List Bar) :
    bars.length ≤ s.warmup ↔ ∀ a ∈ (ofFaultless s valid).annotate bars, ¬ a.Complete := by
  have length := (ofFaultless s valid).length_annotate bars
  constructor
  · intro short a member complete
    obtain ⟨i, found⟩ := List.mem_iff_getElem?.mp member
    have inside : i < bars.length := length ▸ (List.getElem?_eq_some_iff.mp found).1
    have warm := ((presentAt valid found).complete_iff valid).mp complete
    omega
  · intro incomplete
    rcases Nat.lt_or_ge s.warmup bars.length with long | short
    · have found := List.getElem?_eq_getElem (length.symm ▸ long)
      have complete := ((presentAt valid found).complete_iff valid).mpr (Nat.le_refl _)
      exact absurd complete (incomplete _ (List.mem_of_getElem? found))
    · exact short

end Composer

/-! ### The warning -/

namespace Command

/-- What is said about a history that ends within the warm-up. -/
def tooShort : String :=
  "history too short for full indicator warm-up; some fields will be absent"

/-- The bars of a command in the order in which they are annotated. -/
def ordered (cmd : Command) (bars : List Bar) : List Bar := if cmd.sort then Bar.sort bars else bars

theorem ordered_perm (cmd : Command) (bars : List Bar) : (cmd.ordered bars).Perm bars := by
  unfold ordered
  split
  · exact Bar.sort_perm bars
  · exact List.Perm.refl bars

theorem length_ordered (cmd : Command) (bars : List Bar) :
    (cmd.ordered bars).length = bars.length :=
  (cmd.ordered_perm bars).length_eq

theorem loadEvents_warns_iff (cmd : Command) (warmup : Nat) (bars : List Bar) :
    (∃ e ∈ cmd.loadEvents warmup bars, e.message = tooShort) ↔ bars.length ≤ warmup := by
  unfold loadEvents
  by_cases short : bars.length ≤ warmup
  · simp [short, tooShort]
  · by_cases sorted : cmd.sort || Bar.inOrder bars
    · simp [short, sorted, tooShort]
    · simp [short, sorted, tooShort]

/-- What a command has to say once it has looked at the history it has loaded. -/
def laterMessages : List String :=
  ["composing indicators", "rule fired", "aggregated signal", "signal computed"]

theorem annotateEvents_message {warmup : Nat} {bars : List Bar} {e : Log.Event}
    (member : e ∈ annotateEvents warmup bars) : e.message ∈ laterMessages := by
  unfold annotateEvents at member
  split at member
  · cases member
  · rw [List.mem_singleton] at member
    rw [member]
    show "composing indicators" ∈ laterMessages
    decide

theorem verdictEvents_message {rules : List Rule} {series : List Annotated} {v : Verdict}
    {e : Log.Event} (member : e ∈ verdictEvents rules series v) : e.message ∈ laterMessages := by
  unfold verdictEvents at member
  split at member
  · cases member
  · rcases List.mem_append.mp member with fired | vote
    · obtain ⟨hit, -, rfl⟩ := List.mem_map.mp fired
      show "rule fired" ∈ laterMessages
      decide
    · rw [List.mem_singleton] at vote
      rw [vote]
      show "aggregated signal" ∈ laterMessages
      decide

/-- After the events of loading, a command does not come back to the history it was given. -/
theorem process_events (cmd : Command) (settings : Settings) (c : Composer) (bars : List Bar) :
    ∃ later, (cmd.process settings c bars).1 = cmd.loadEvents c.warmup bars ++ later ∧
      ∀ e ∈ later, e.message ∈ laterMessages := by
  unfold process
  cases cmd.output with
  | series format =>
      cases format with
      | json => exact ⟨_, rfl, fun e member => annotateEvents_message member⟩
      | csv => exact ⟨_, rfl, fun e member => annotateEvents_message member⟩
  | verdict =>
      have regroup : ∀ loaded annotated voted computed : List Log.Event,
          loaded ++ annotated ++ voted ++ computed
            = loaded ++ (annotated ++ (voted ++ computed)) := by
        intro loaded annotated voted computed
        rw [List.append_assoc, List.append_assoc]
      refine ⟨_, regroup _ _ _ _, ?_⟩
      intro e member
      rcases List.mem_append.mp member with annotated | rest
      · exact annotateEvents_message annotated
      · rcases List.mem_append.mp rest with voted | computed
        · exact verdictEvents_message voted
        · rw [List.mem_singleton] at computed
          rw [computed]
          show "signal computed" ∈ laterMessages
          decide

/-- A command warns exactly of a history that ends within the warm-up. -/
theorem warns_iff (cmd : Command) (settings : Settings) (c : Composer) (bars : List Bar) :
    (∃ e ∈ (cmd.process settings c bars).1, e.message = tooShort) ↔ bars.length ≤ c.warmup := by
  obtain ⟨later, events, quiet⟩ := cmd.process_events settings c bars
  rw [← cmd.loadEvents_warns_iff c.warmup bars, events]
  constructor
  · rintro ⟨e, member, warns⟩
    rcases List.mem_append.mp member with loaded | after
    · exact ⟨e, loaded, warns⟩
    · have silent : tooShort ∉ laterMessages := by decide
      exact absurd (warns ▸ quiet e after) silent
  · rintro ⟨e, loaded, warns⟩
    exact ⟨e, List.mem_append_left _ loaded, warns⟩

end Command

/-! ### Exactness -/

/-- The lookback of every indicator is the number of absent values at the front of any history that
is longer. -/
structure ExactLookbacks : Prop where
  sma : ∀ k : Indicator.Sma, Indicator.ExactLookback k.values k.lookback
  rsi : ∀ k : Indicator.Rsi, Indicator.ExactLookback k.values k.lookback
  bollinger : ∀ k : Indicator.Bollinger, Indicator.ExactLookback k.values k.lookback
  ema : ∀ k : Indicator.Ema, Indicator.ExactLookback k.values k.lookback
  macd : ∀ k : Indicator.Macd, Indicator.ExactLookback k.values k.lookback

theorem exactLookbacks : ExactLookbacks where
  sma k := Indicator.exactLookback_of_beginsAt k.causal_values k.beginsAt_values
  rsi k := Indicator.exactLookback_of_beginsAt k.causal_values k.beginsAt_values
  bollinger k := Indicator.exactLookback_of_beginsAt k.causal_values k.beginsAt_values
  ema k := Indicator.exactLookback_of_beginsAt k.causal_values k.beginsAt_values
  macd k := Indicator.exactLookback_of_beginsAt k.causal_values k.beginsAt_values

/-- Warm-up is exact, for all settings without fault. Every indicator of a record is present exactly
from its own place on, every lookback counts the absent values at the front, and a record is
complete exactly from the warm-up on. So a history is taken for too short, and a command warns of
it, exactly where no record of it is complete. -/
theorem warmup_exact {s : IndicatorSettings} (valid : s.fault? = none) :
    ∃ c, Composer.make s = .ok c ∧ c.warmup = s.warmup ∧ ExactLookbacks ∧
      (∀ bars i a, (c.annotate bars)[i]? = some a →
        a.PresentAt s i ∧ (a.Complete ↔ s.warmup ≤ i)) ∧
      (∀ bars, bars.length ≤ c.warmup ↔ ∀ a ∈ c.annotate bars, ¬ a.Complete) ∧
      ∀ (cmd : Command) (settings : Settings) (bars : List Bar),
        (∃ e ∈ (cmd.process settings c bars).1, e.message = Command.tooShort)
          ↔ ∀ a ∈ c.annotate (cmd.ordered bars), ¬ a.Complete := by
  refine ⟨_, Composer.make_eq_ok_iff.mpr ⟨valid, rfl⟩, rfl, exactLookbacks, ?_, ?_, ?_⟩
  · intro bars i a found
    have present := Composer.presentAt valid found
    exact ⟨present, present.complete_iff valid⟩
  · intro bars
    exact Composer.length_le_warmup_iff valid bars
  · intro cmd settings bars
    rw [cmd.warns_iff settings _ bars, ← cmd.length_ordered bars]
    exact Composer.length_le_warmup_iff valid (cmd.ordered bars)

/-- The default settings, under which the simple average is the last indicator to begin. -/
theorem warmup_exact_standard :
    ∃ c, Composer.make {} = .ok c ∧
      ∀ bars i a, (c.annotate bars)[i]? = some a → (a.Complete ↔ 19 ≤ i) := by
  have valid : ({} : IndicatorSettings).fault? = none := IndicatorSettings.fault?_default
  obtain ⟨c, made, -, -, records, -⟩ := warmup_exact valid
  exact ⟨c, made, fun bars i a found => (records bars i a found).2⟩

end PriceSignals
