/-
Module: PriceSignals.Proofs.ComposerSafety
Purpose: Settings without fault are exactly those that all indicators accept, and a composer of
  such settings annotates every history without breaking a check of its buffers.
Main exports:
  IndicatorSettings.Accepted, IndicatorSettings.fault?_eq_none_iff, Composer.assemble,
  Composer.assemble_eq_ok_iff, Composer.annotateIndexed, Composer.annotateIndexed_eq,
  Composer.annotateIndexed_overflow, faultless_settings_never_trap
-/
import PriceSignals.Proofs.Columns
import PriceSignals.Proofs.IndexedKernels
import PriceSignals.Proofs.Results

namespace PriceSignals

open Indicator

/-! ### Accepted settings -/

namespace IndicatorSettings

/-- Every indicator accepts its parameters. -/
structure Accepted (s : IndicatorSettings) : Prop where
  sma : (Sma.make s.smaPeriod.toNat).isOk = true
  rsi : (Rsi.make s.rsiPeriod.toNat).isOk = true
  bollinger : (Bollinger.make s.bollingerPeriod.toNat s.bollingerMultiplier).isOk = true
  emaFast : (Ema.make s.macdFast.toNat).isOk = true
  emaSlow : (Ema.make s.macdSlow.toNat).isOk = true
  macd : (Macd.make s.macdFast.toNat s.macdSlow.toNat s.macdSignal.toNat).isOk = true

/-- What the search through the settings looks for, as one condition on all of them. -/
theorem fault?_eq_none_iff {s : IndicatorSettings} :
    s.fault? = none ↔ (∀ name, 0 < (s.period name).toNat) ∧ IsMultiplier s.bollingerMultiplier := by
  constructor
  · exact fun h => ⟨period_pos h, multiplier_ok h⟩
  · rintro ⟨positive, finite, above⟩
    have zero : (PeriodName.all.find? fun name => s.period name == 0) = none := by
      refine List.find?_eq_none.mpr fun name _ zero => ?_
      have word : s.period name = 0 := eq_of_beq zero
      exact absurd (positive name) (by simp [word])
    have accepted : ¬ (s.bollingerMultiplier.isFinite = false ∨ s.bollingerMultiplier < 0.0) := by
      rintro (infinite | below)
      · exact Bool.false_ne_true (infinite.symm.trans finite)
      · exact Binary64.not_le_of_lt below above
    rw [fault?, zero]
    exact if_neg accepted

theorem isOk_dite {ε α : Type} {p : Prop} [Decidable p] {made : p → α} {violation : ε} :
    (if h : p then Except.ok (made h) else Except.error violation).isOk = true ↔ p := by
  by_cases h : p <;> simp [h, Except.isOk, Except.toBool]

theorem isOk_bollinger {period : Nat} {multiplier : Float} :
    (Bollinger.make period multiplier).isOk = true ↔ 0 < period ∧ IsMultiplier multiplier := by
  unfold Bollinger.make
  by_cases positive : 0 < period
  · rw [dif_pos positive, isOk_dite]
    exact (and_iff_right positive).symm
  · rw [dif_neg positive]
    exact iff_of_false Bool.false_ne_true fun both => positive both.1

/-- Each indicator accepts positive periods, and the bands a multiplier that is one. -/
theorem accepted_iff {s : IndicatorSettings} :
    s.Accepted ↔ (∀ name, 0 < (s.period name).toNat) ∧ IsMultiplier s.bollingerMultiplier := by
  constructor
  · intro accepted
    obtain ⟨fast, slow, signal⟩ := isOk_dite.mp accepted.macd
    obtain ⟨bollinger, multiplier⟩ := isOk_bollinger.mp accepted.bollinger
    refine ⟨fun name => ?_, multiplier⟩
    cases name with
    | sma => exact isOk_dite.mp accepted.sma
    | rsi => exact isOk_dite.mp accepted.rsi
    | bollinger => exact bollinger
    | macdFast => exact fast
    | macdSlow => exact slow
    | macdSignal => exact signal
  · rintro ⟨positive, multiplier⟩
    exact {
      sma := isOk_dite.mpr (positive .sma)
      rsi := isOk_dite.mpr (positive .rsi)
      bollinger := isOk_bollinger.mpr ⟨positive .bollinger, multiplier⟩
      emaFast := isOk_dite.mpr (positive .macdFast)
      emaSlow := isOk_dite.mpr (positive .macdSlow)
      macd := isOk_dite.mpr ⟨positive .macdFast, positive .macdSlow, positive .macdSignal⟩ }

end IndicatorSettings

/-! ### The composer -/

namespace Composer

/-- Builds the indicators one after the other. The first that does not accept its parameters
stops it. -/
def assemble (s : IndicatorSettings) : Except Violation Composer := do
  let sma ← Sma.make s.smaPeriod.toNat
  let rsi ← Rsi.make s.rsiPeriod.toNat
  let bollinger ← Bollinger.make s.bollingerPeriod.toNat s.bollingerMultiplier
  let emaFast ← Ema.make s.macdFast.toNat
  let emaSlow ← Ema.make s.macdSlow.toNat
  let macd ← Macd.make s.macdFast.toNat s.macdSlow.toNat s.macdSignal.toNat
  return { sma, rsi, bollinger, emaFast, emaSlow, macd, warmup := s.warmup }

/-- The bands around the simple average, or around their own where the periods differ. -/
def indexedBands (c : Composer) (closes : List Float) (averages : List (Option Float)) :
    Checked (List (Option Bands)) := do
  if c.bollinger.period = c.sma.period then Indexed.bands c.bollinger closes averages
  else Indexed.bands c.bollinger closes (← Indexed.sma c.bollinger.period closes)

/-- Annotates a history with the loops over buffers, and reads the buffers place by place. -/
def annotateIndexed (c : Composer) (bars : List Bar) : Checked (List Annotated) := do
  if bars.isEmpty then return []
  let closes := bars.map (·.close)
  let sma ← Indexed.sma c.sma.period closes
  let rsi ← Indexed.rsi c.rsi.period closes
  let bands ← c.indexedBands closes sma
  let fast ← Indexed.ema c.emaFast.period closes
  let slow ← Indexed.ema c.emaSlow.period closes
  let macd ← Indexed.convergence c.macd fast slow
  bars.zipIdx.mapM fun (bar, i) => do
    return {
      bar
      date := bar.instant?
      sma := ← Checked.get sma i
      emaFast := some (← Checked.get fast i)
      emaSlow := some (← Checked.get slow i)
      rsi := ← Checked.get rsi i
      bollinger := ← Checked.get bands i
      macd := ← Checked.get macd i }

/-- Building all indicators succeeds only where each of them accepts its parameters. -/
theorem accepted_of_assemble {s : IndicatorSettings} {c : Composer} (h : assemble s = .ok c) :
    s.Accepted := by
  obtain ⟨_, sma, h⟩ := exists_of_bind_eq_ok h
  obtain ⟨_, rsi, h⟩ := exists_of_bind_eq_ok h
  obtain ⟨_, bollinger, h⟩ := exists_of_bind_eq_ok h
  obtain ⟨_, emaFast, h⟩ := exists_of_bind_eq_ok h
  obtain ⟨_, emaSlow, h⟩ := exists_of_bind_eq_ok h
  obtain ⟨_, macd, -⟩ := exists_of_bind_eq_ok h
  exact {
    sma := by rw [sma]; rfl
    rsi := by rw [rsi]; rfl
    bollinger := by rw [bollinger]; rfl
    emaFast := by rw [emaFast]; rfl
    emaSlow := by rw [emaSlow]; rfl
    macd := by rw [macd]; rfl }

theorem assemble_of_faultless {s : IndicatorSettings} (h : s.fault? = none) :
    assemble s = .ok (ofFaultless s h) := by
  have pos (name : PeriodName) : 0 < (s.period name).toNat := IndicatorSettings.period_pos h name
  have sma : Sma.make s.smaPeriod.toNat = .ok ⟨_, pos .sma⟩ := dif_pos (pos .sma)
  have rsi : Rsi.make s.rsiPeriod.toNat = .ok ⟨_, pos .rsi⟩ := dif_pos (pos .rsi)
  have bollinger : Bollinger.make s.bollingerPeriod.toNat s.bollingerMultiplier
      = .ok ⟨_, _, pos .bollinger, IndicatorSettings.multiplier_ok h⟩ :=
    (dif_pos (pos .bollinger)).trans (dif_pos (IndicatorSettings.multiplier_ok h))
  have emaFast : Ema.make s.macdFast.toNat = .ok ⟨_, pos .macdFast⟩ := dif_pos (pos .macdFast)
  have emaSlow : Ema.make s.macdSlow.toNat = .ok ⟨_, pos .macdSlow⟩ := dif_pos (pos .macdSlow)
  have macd : Macd.make s.macdFast.toNat s.macdSlow.toNat s.macdSignal.toNat
      = .ok ⟨_, _, _, pos .macdFast, pos .macdSlow, pos .macdSignal⟩ :=
    dif_pos ⟨pos .macdFast, pos .macdSlow, pos .macdSignal⟩
  rw [assemble, sma, rsi, bollinger, emaFast, emaSlow, macd]
  rfl

/-- Looking for a fault first makes no difference: the indicators that settings give are those
that their parameters build. -/
theorem assemble_eq_ok_iff {s : IndicatorSettings} {c : Composer} :
    assemble s = .ok c ↔ make s = .ok c := by
  rw [make_eq_ok_iff]
  constructor
  · intro built
    have valid : s.fault? = none := IndicatorSettings.fault?_eq_none_iff.mpr
      (IndicatorSettings.accepted_iff.mp (accepted_of_assemble built))
    rw [assemble_of_faultless valid] at built
    exact ⟨valid, (Except.ok.inj built).symm⟩
  · rintro ⟨valid, rfl⟩
    exact assemble_of_faultless valid

/-! ### Annotating -/

/-- Whether they share the simple average or compute their own, the bands are the same. -/
theorem indexedBands_eq (c : Composer) {closes : List Float} (fits : closes.length < UInt64.size) :
    c.indexedBands closes (c.sma.values closes) = .ok (c.bollinger.values closes) := by
  have length (k : Sma) : closes.length = (k.values closes).length :=
    (k.causal_values.length_eq closes).symm
  unfold indexedBands
  split
  · rename_i shared
    rw [← c.bollinger_valuesFrom_sma shared]
    exact Indexed.bands_eq c.bollinger fits (length c.sma)
  · have own : Indexed.sma c.bollinger.period closes = .ok _ :=
      Indexed.sma_eq ⟨c.bollinger.period, c.bollinger.period_pos⟩ fits
    rw [own, Checked.ok_bind]
    exact Indexed.bands_eq c.bollinger fits (length _)

/-- Annotating with loops over buffers breaks no check and gives the records of the composer. -/
theorem annotateIndexed_eq (c : Composer) {bars : List Bar} (fits : bars.length < UInt64.size)
    (room : c.rsi.period + 1 < UInt64.size) : c.annotateIndexed bars = .ok (c.annotate bars) := by
  by_cases empty : bars = []
  · subst empty
    rfl
  · have length : (bars.map (·.close)).length = bars.length := List.length_map _
    generalize closes_eq : bars.map (·.close) = closes at length
    have fits : closes.length < UInt64.size := length ▸ fits
    have averages := (c.emaFast.causal_series.length_eq closes).trans
      (c.emaSlow.causal_series.length_eq closes).symm
    have shared : (if c.bollinger.period = c.sma.period then
        c.bollinger.valuesFrom closes (c.sma.values closes) else c.bollinger.values closes)
        = c.bollinger.values closes := ite_eq_right_iff.mpr fun h => c.bollinger_valuesFrom_sma h closes
    rw [annotateIndexed, if_neg (by simpa using empty), annotate]
    dsimp only
    rw [closes_eq, Indexed.sma_eq c.sma fits, Checked.ok_bind, Indexed.rsi_eq c.rsi closes room,
      Checked.ok_bind, indexedBands_eq c fits, Checked.ok_bind, Indexed.ema_eq, Checked.ok_bind,
      Indexed.ema_eq, Checked.ok_bind, Indexed.convergence_eq c.macd averages, Checked.ok_bind,
      shared, List.mapIdx_eq_zipIdx_map]
    refine Checked.mapM_eq_ok ?_
    rintro ⟨bar, i⟩ member
    have inside : i < closes.length := by
      have place := List.snd_lt_of_mem_zipIdx member
      omega
    have reads {α : Type} {series : List Float → List α} (causal : Series.Causal series) :
        ∃ value, (series closes)[i]? = some value := by
      have long : i < (series closes).length := (causal.length_eq closes).symm ▸ inside
      exact ⟨_, List.getElem?_eq_getElem long⟩
    obtain ⟨_, sma⟩ := reads c.sma.causal_values
    obtain ⟨_, fast⟩ := reads c.emaFast.causal_series
    obtain ⟨_, slow⟩ := reads c.emaSlow.causal_series
    obtain ⟨_, rsi⟩ := reads c.rsi.causal_values
    obtain ⟨_, bands⟩ := reads c.bollinger.causal_values
    obtain ⟨_, macd⟩ := reads c.causal_macd
    simp only [List.getElem?_toArray, Checked.get_eq_ok sma, Checked.get_eq_ok fast,
      Checked.get_eq_ok slow, Checked.get_eq_ok rsi, Checked.get_eq_ok bands,
      Checked.get_eq_ok macd, Checked.ok_bind, sma, fast, slow, rsi, bands, macd, Option.join_some,
      Checked.pure_eq_ok]

/-- The greatest period of the relative strength index is accepted, but leaves no room for the
place after it. -/
theorem annotateIndexed_overflow (c : Composer) {bars : List Bar} (some_bars : bars ≠ [])
    (fits : bars.length < UInt64.size) (full : UInt64.size ≤ c.rsi.period + 1) :
    c.annotateIndexed bars = .error .overflow := by
  have closes : (bars.map (·.close)).length < UInt64.size := by rwa [List.length_map]
  rw [annotateIndexed, if_neg (by simpa using some_bars)]
  dsimp only
  rw [Indexed.sma_eq c.sma closes, Checked.ok_bind, Indexed.rsi_overflow c.rsi _ full]
  rfl

end Composer

/-- The search for faults and the demands of the indicators agree: settings have no fault exactly
where every indicator accepts its parameters, and then the indicators are built. A composer of
such settings whose index leaves room for one more place breaks no check on any history, and
gives one record for each bar. -/
theorem faultless_settings_never_trap (s : IndicatorSettings) :
    (s.fault? = none ↔ s.Accepted) ∧
      (s.fault? = none → s.rsiPeriod.toNat < UInt64.size - 1 →
        ∃ c, Composer.assemble s = .ok c ∧ Composer.make s = .ok c ∧
          ∀ bars : List Bar, bars.length < UInt64.size →
            ∃ records, c.annotateIndexed bars = .ok records ∧ records = c.annotate bars ∧
              records.length = bars.length) := by
  constructor
  · rw [IndicatorSettings.fault?_eq_none_iff, IndicatorSettings.accepted_iff]
  · intro valid room
    refine ⟨Composer.ofFaultless s valid, Composer.assemble_of_faultless valid,
      Composer.make_eq_ok_iff.mpr ⟨valid, rfl⟩, fun bars fits => ?_⟩
    have period : (Composer.ofFaultless s valid).rsi.period = s.rsiPeriod.toNat := rfl
    exact ⟨_, Composer.annotateIndexed_eq _ fits (by omega), rfl,
      Composer.length_annotate _ bars⟩

/-- Periods that are far longer than the history, with the negative zero as multiplier. -/
theorem faultless_settings_never_trap_long :
    let s : IndicatorSettings :=
      { smaPeriod := 18446744073709551615, rsiPeriod := 18446744073709551614,
        bollingerPeriod := 18446744073709551615, bollingerMultiplier := -0.0 }
    let bar : Bar := ⟨.unix 0, 1, 1, 1, 1, none⟩
    s.Accepted ∧ ∃ c, Composer.assemble s = .ok c ∧
      ∃ records, c.annotateIndexed [bar, bar] = .ok records ∧ records.length = 2 := by
  intro s bar
  have valid : s.fault? = none := by decide
  obtain ⟨gate, safe⟩ := faultless_settings_never_trap s
  obtain ⟨c, built, -, runs⟩ := safe valid (by decide)
  obtain ⟨records, run, -, length⟩ := runs [bar, bar] (by decide)
  exact ⟨gate.mp valid, c, built, records, run, length⟩

end PriceSignals
