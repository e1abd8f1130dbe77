/-
Module: PriceSignals.Proofs.KernelAgreement
Purpose: An annotated history is what the single indicators make of its bars. What is derived for a
  history, and the verdict on it, so depend on its closes alone.
Main exports:
  Annotated.Readings, Annotated.readings, Rule.judge_eq_of_readings, Verdict.of_eq_of_readings,
  Agrees, Composer.agrees_annotate, annotate_agrees_with_kernels
-/
import PriceSignals.Proofs.Columns
import PriceSignals.Verdict

namespace PriceSignals

/-! ### What the rules read -/

/-- The part of an annotated bar that depends on closes: its own close and everything derived. -/
structure Annotated.Readings where
  close : Float
  sma : Option Float
  emaFast : Option Float
  emaSlow : Option Float
  rsi : Option Float
  bollinger : Option Indicator.Bands
  macd : Option Indicator.Convergence

/-- The readings of an annotated bar. -/
def Annotated.readings (a : Annotated) : Readings :=
  { close := a.bar.close
    sma := a.sma
    emaFast := a.emaFast
    emaSlow := a.emaSlow
    rsi := a.rsi
    bollinger := a.bollinger
    macd := a.macd }

/-- The standard rules judge by the readings alone. -/
theorem Rule.judge_eq_of_readings {r : Rule} {t : Thresholds} (standard : r ∈ Rule.standard t)
    {current previous current' previous' : Annotated}
    (now : current.readings = current'.readings)
    (before : previous.readings = previous'.readings) :
    r.judge current previous = r.judge current' previous' := by
  have close : current.bar.close = current'.bar.close := congrArg (·.close) now
  have rsi : current.rsi = current'.rsi := congrArg (·.rsi) now
  have bands : current.bollinger = current'.bollinger := congrArg (·.bollinger) now
  have new : current.macd = current'.macd := congrArg (·.macd) now
  have old : previous.macd = previous'.macd := congrArg (·.macd) before
  simp only [Rule.standard, List.mem_cons, List.not_mem_nil, or_false] at standard
  rcases standard with rfl | rfl | rfl
  · simp only [rsiExtremes, rsi]
  · simp only [bollingerBreach, bands, close]
  · simp only [macdCrossover, old, new]

/-- Two histories with the same readings both end too early or end in two bars with the same
readings. -/
theorem latestPair?_of_readings {xs ys : List Annotated}
    (same : xs.map (·.readings) = ys.map (·.readings)) :
    (latestPair? xs = none ∧ latestPair? ys = none) ∨
      ∃ current previous current' previous',
        latestPair? xs = some (current, previous) ∧ latestPair? ys = some (current', previous') ∧
          current.readings = current'.readings ∧ previous.readings = previous'.readings := by
  have reversed : xs.reverse.map (·.readings) = ys.reverse.map (·.readings) := by
    rw [List.map_reverse, List.map_reverse, same]
  unfold latestPair?
  generalize xs.reverse = xs at reversed ⊢
  generalize ys.reverse = ys at reversed ⊢
  cases xs with
  | nil =>
      cases ys with
      | nil => exact .inl ⟨rfl, rfl⟩
      | cons _ _ => simp at reversed
  | cons current older =>
      cases ys with
      | nil => simp at reversed
      | cons current' older' =>
          simp only [List.map_cons, List.cons.injEq] at reversed
          obtain ⟨now, rest⟩ := reversed
          cases older with
          | nil =>
              cases older' with
              | nil => exact .inl ⟨rfl, rfl⟩
              | cons _ _ => simp at rest
          | cons previous _ =>
              cases older' with
              | nil => simp at rest
              | cons previous' _ =>
                  simp only [List.map_cons, List.cons.injEq] at rest
                  exact .inr ⟨current, previous, current', previous', rfl, rfl, now, rest.1⟩

/-- Standard rules fire alike on bars with the same readings. -/
theorem firedOn_eq_of_readings {rules : List Rule}
    (standard : ∀ r ∈ rules, ∃ t, r ∈ Rule.standard t)
    {current previous current' previous' : Annotated}
    (now : current.readings = current'.readings)
    (before : previous.readings = previous'.readings) :
    firedOn rules current previous = firedOn rules current' previous' := by
  unfold firedOn
  induction rules with
  | nil => rfl
  | cons r rules ih =>
      obtain ⟨t, among⟩ := standard r List.mem_cons_self
      have rest := ih fun r member => standard r (List.mem_cons_of_mem _ member)
      have judged := Rule.judge_eq_of_readings among now before
      rw [List.filterMap_cons, List.filterMap_cons, judged, rest]

/-- The verdict of standard rules on a history depends on its readings alone. -/
theorem Verdict.of_eq_of_readings {rules : List Rule}
    (standard : ∀ r ∈ rules, ∃ t, r ∈ Rule.standard t) {xs ys : List Annotated}
    (same : xs.map (·.readings) = ys.map (·.readings)) :
    Verdict.of rules xs = Verdict.of rules ys := by
  unfold Verdict.of
  rcases latestPair?_of_readings same with ⟨early, early'⟩ | found
  · rw [early, early']
  · obtain ⟨current, previous, current', previous', pair, pair', now, before⟩ := found
    rw [pair, pair']
    show Verdict.ofHits _ = Verdict.ofHits _
    rw [firedOn_eq_of_readings standard now before]

/-! ### Agreement with the single indicators -/

/-- A series is what the indicators of some settings, each computed on its own from the closes, make
of some bars: there is one record for each bar in the same order, which holds the bar, its instant
and the value of each indicator at its place. -/
structure Agrees (s : IndicatorSettings) (bars : List Bar) (series : List Annotated) : Prop where
  bar : series.map (·.bar) = bars
  date : series.map (·.date) = bars.map (·.instant?)
  sma : (Indicator.Sma.make s.smaPeriod.toNat).map (fun k => k.values (bars.map (·.close)))
    = .ok (series.map (·.sma))
  rsi : (Indicator.Rsi.make s.rsiPeriod.toNat).map (fun k => k.values (bars.map (·.close)))
    = .ok (series.map (·.rsi))
  bollinger :
    (Indicator.Bollinger.make s.bollingerPeriod.toNat s.bollingerMultiplier).map
        (fun k => k.values (bars.map (·.close)))
      = .ok (series.map (·.bollinger))
  emaFast : (Indicator.Ema.make s.macdFast.toNat).map (fun k => k.values (bars.map (·.close)))
    = .ok (series.map (·.emaFast))
  emaSlow : (Indicator.Ema.make s.macdSlow.toNat).map (fun k => k.values (bars.map (·.close)))
    = .ok (series.map (·.emaSlow))
  macd :
    (Indicator.Macd.make s.macdFast.toNat s.macdSlow.toNat s.macdSignal.toNat).map
        (fun k => k.values (bars.map (·.close)))
      = .ok (series.map (·.macd))

/-- Series that agree with the indicators on the same closes have the same readings. -/
theorem Agrees.readings_eq {s : IndicatorSettings} {bars others : List Bar}
    {xs ys : List Annotated} (first : Agrees s bars xs) (second : Agrees s others ys)
    (closes : others.map (·.close) = bars.map (·.close)) :
    ys.map (·.readings) = xs.map (·.readings) := by
  have close : ys.map (fun a => Annotated.Readings.mk a.bar.close)
      = xs.map fun a => Annotated.Readings.mk a.bar.close := by
    have made := congrArg (List.map Annotated.Readings.mk) closes
    rw [← first.bar, ← second.bar] at made
    simp only [List.map_map] at made
    exact made
  have column {α : Type} {made : Except Indicator.Violation (List α)} {u v : List α}
      (hu : made = .ok u) (hv : made = .ok v) : v = u :=
    Except.ok.inj (hv.symm.trans hu)
  have sma := column first.sma (closes ▸ second.sma)
  have emaFast := column first.emaFast (closes ▸ second.emaFast)
  have emaSlow := column first.emaSlow (closes ▸ second.emaSlow)
  have rsi := column first.rsi (closes ▸ second.rsi)
  have bollinger := column first.bollinger (closes ▸ second.bollinger)
  have macd := column first.macd (closes ▸ second.macd)
  have records := map_seq_eq (map_seq_eq (map_seq_eq (map_seq_eq (map_seq_eq (map_seq_eq close sma)
    emaFast) emaSlow) rsi) bollinger) macd
  exact records

/-- The composer of settings agrees with the indicators, whether or not it shares the simple
average with the bands. -/
theorem Composer.agrees_annotate {s : IndicatorSettings} (valid : s.fault? = none)
    (bars : List Bar) : Agrees s bars ((ofFaultless s valid).annotate bars) := by
  have sma : 0 < s.smaPeriod.toNat := IndicatorSettings.period_pos valid .sma
  have rsi : 0 < s.rsiPeriod.toNat := IndicatorSettings.period_pos valid .rsi
  have bollinger : 0 < s.bollingerPeriod.toNat := IndicatorSettings.period_pos valid .bollinger
  have fast : 0 < s.macdFast.toNat := IndicatorSettings.period_pos valid .macdFast
  have slow : 0 < s.macdSlow.toNat := IndicatorSettings.period_pos valid .macdSlow
  have signal : 0 < s.macdSignal.toNat := IndicatorSettings.period_pos valid .macdSignal
  have multiplier : Indicator.IsMultiplier s.bollingerMultiplier :=
    IndicatorSettings.multiplier_ok valid
  constructor
  case bar => exact annotate_bar _ bars
  case date => exact annotate_date _ bars
  case sma =>
    rw [annotate_sma, Indicator.Sma.make, dif_pos sma]
    rfl
  case rsi =>
    rw [annotate_rsi, Indicator.Rsi.make, dif_pos rsi]
    rfl
  case bollinger =>
    rw [annotate_bollinger, Indicator.Bollinger.make, dif_pos bollinger, dif_pos multiplier]
    rfl
  case emaFast =>
    rw [annotate_emaFast, Indicator.Ema.make, dif_pos fast]
    rfl
  case emaSlow =>
    rw [annotate_emaSlow, Indicator.Ema.make, dif_pos slow]
    rfl
  case macd =>
    rw [annotate_macd, Indicator.Macd.make, dif_pos ⟨fast, slow, signal⟩]
    rfl

/-- The composer agrees with the single indicators on every history, for all settings without fault.
So histories with the same closes have the same derived values and the same verdict under the
standard rules, whatever else their bars hold. -/
theorem annotate_agrees_with_kernels {s : IndicatorSettings} (valid : s.fault? = none) :
    ∃ c, Composer.make s = .ok c ∧
      ∀ bars, Agrees s bars (c.annotate bars) ∧
        ∀ others : List Bar, others.map (·.close) = bars.map (·.close) →
          (c.annotate others).map (·.readings) = (c.annotate bars).map (·.readings) ∧
          ∀ rules, (∀ r ∈ rules, ∃ t, r ∈ Rule.standard t) →
            Verdict.of rules (c.annotate others) = Verdict.of rules (c.annotate bars) := by
  refine ⟨_, Composer.make_eq_ok_iff.mpr ⟨valid, rfl⟩, ?_⟩
  intro bars
  have agrees := Composer.agrees_annotate valid bars
  refine ⟨agrees, ?_⟩
  intro others closes
  have same := agrees.readings_eq (Composer.agrees_annotate valid others) closes
  refine ⟨same, ?_⟩
  intro rules standard
  exact Verdict.of_eq_of_readings standard same

/-- Settings under which the bands cannot share the simple average. -/
theorem annotate_agrees_with_kernels_unshared :
    let s : IndicatorSettings := { smaPeriod := 3, bollingerPeriod := 5 }
    ∃ c, Composer.make s = .ok c ∧ ∀ bars, Agrees s bars (c.annotate bars) := by
  intro s
  have valid : s.fault? = none := by decide
  obtain ⟨c, made, agrees⟩ := annotate_agrees_with_kernels valid
  exact ⟨c, made, fun bars => (agrees bars).1⟩

end PriceSignals
