/-
Module: PriceSignals.Proofs.LooserSettings
Purpose: Two runs whose settings differ in the width of the bands and in the thresholds. Wider bands
  and thresholds further out only silence rules: what still fires has fired before, with the same
  vote. All else that is derived for a bar stays the same, the middle of its bands included.
Main exports:
  Settings.LooserThan, Annotated.SameButOuterBands, Annotated.WidthsApart,
  Bollinger.width_le_width, Bands.lt_lower_of_wider, Bands.upper_lt_of_wider,
  Hit.exists_sameVote_of_sides, Rule.rsiExtremes_of_looser, Rule.bollingerBreach_of_wider,
  Composer.withMultiplier, Composer.bollinger_of_annotate, Composer.widthsApart_annotate,
  looser_settings_only_silence
-/
import PriceSignals.Proofs.BandOrder
import PriceSignals.Proofs.RunPairs
import PriceSignals.Proofs.SettingsChecks

namespace PriceSignals

open Binary64
open Indicator (Bands Bollinger IsMultiplier)

/-! ### What is compared -/

/-- Settings are looser than others if they differ at most in a greater width of the bands and in
thresholds that are further out. -/
structure Settings.LooserThan (loose tight : Settings) : Prop where
  /-- All periods are the same. -/
  periods : loose.indicators
    = { tight.indicators with bollingerMultiplier := loose.indicators.bollingerMultiplier }
  multiplier : tight.indicators.bollingerMultiplier ≤ loose.indicators.bollingerMultiplier
  oversold : loose.thresholds.oversold ≤ tight.thresholds.oversold
  overbought : tight.thresholds.overbought ≤ loose.thresholds.overbought

/-- Two records agree in everything but the upper and the lower band. -/
structure Annotated.SameButOuterBands (a b : Annotated) : Prop where
  bar : a.bar = b.bar
  date : a.date = b.date
  sma : a.sma = b.sma
  emaFast : a.emaFast = b.emaFast
  emaSlow : a.emaSlow = b.emaSlow
  rsi : a.rsi = b.rsi
  middle : a.bollinger.map (·.middle) = b.bollinger.map (·.middle)
  macd : a.macd = b.macd

/-- Two records that differ at most in the multiplier of their bands: where there are bands, they
are made of one window. -/
structure Annotated.WidthsApart (m m' : Float) (a b : Annotated) : Prop
    extends Annotated.SameButOuterBands a b where
  bands : ∃ window? : Option (List Float), a.bollinger = window?.map (Bands.ofWindow m) ∧
    b.bollinger = window?.map (Bands.ofWindow m')

/-! ### Wider bands -/

section Wider

variable {m m' price : Float} {window : List Float}

/-- A width that is finite comes from a finite deviation, and so a smaller multiple of the same
deviation is a smaller width. -/
theorem Indicator.Bollinger.width_le_width (ok : IsMultiplier m) (wider : m ≤ m') {v : ℚ}
    (finite : value? (width m' window) = some v) :
    (width m window).isFinite = true ∧ width m window ≤ width m' window := by
  obtain ⟨b', s, hb', hs⟩ := exists_value?_of_mul finite
  obtain ⟨b, hb⟩ := exists_value? ok.1
  have product : level? (width m window) = some (stored (b * s)) := level?_mul hb hs
  have product' : level? (width m' window) = some (stored (b' * s)) := level?_mul hb' hs
  have root : 0 ≤ s := nonneg_of_not_lt_zero (not_sqrt_lt_zero _) (level?_of_value? hs)
  have below : b ≤ b' := (le_iff_of_level? (level?_of_value? hb) (level?_of_value? hb')).mp wider
  have places : stored (b * s) ≤ stored (b' * s) :=
    stored_mono (mul_le_mul_of_nonneg_right below root)
  have nonneg : 0 ≤ stored (b * s) := nonneg_of_not_lt_zero (not_width_lt_zero ok window) product
  have inside : |stored (b * s)| < tooLarge := by
    have same : v = stored (b' * s) :=
      Option.some.inj ((level?_of_value? finite).symm.trans product')
    have greatest := (le_abs_self v).trans_lt (abs_lt_of_value? finite)
    rw [abs_of_nonneg nonneg]
    exact places.trans_lt (same ▸ greatest)
  refine ⟨?_, (le_iff_of_level? product product').mpr places⟩
  rw [← isSome_value?, value?_of_level? product inside]
  rfl

variable (ok : IsMultiplier m) (ok' : IsMultiplier m') (wider : m ≤ m')

include ok ok' wider

/-- A price below the lower band of wider bands is below the lower band. The wider band is not at
minus infinity then, so that its width is finite. -/
theorem Indicator.Bands.lt_lower_of_wider (h : price < (ofWindow m' window).lower) :
    price < (ofWindow m window).lower := by
  have wide : ¬ Bollinger.width m' window < 0 := Bollinger.not_width_lt_zero ok' window
  obtain ⟨v, hv⟩ := exists_value?_of_lt_sub wide h
  obtain ⟨finite, width⟩ := Bollinger.width_le_width ok wider hv
  have number' := (isNaN_of_ordering? (lt_iff_ordering?.mp h)).2
  have number : (ofWindow m window).lower.isNaN = false :=
    isNaN_sub_of_isFinite number' finite
  exact lt_of_lt_of_le h (sub_anti number number' width)

/-- A price above the upper band of wider bands is above the upper band. -/
theorem Indicator.Bands.upper_lt_of_wider (h : (ofWindow m' window).upper < price) :
    (ofWindow m window).upper < price := by
  have wide : ¬ Bollinger.width m' window < 0 := Bollinger.not_width_lt_zero ok' window
  obtain ⟨v, hv⟩ := exists_value?_of_add_lt wide h
  obtain ⟨finite, width⟩ := Bollinger.width_le_width ok wider hv
  have number' := (isNaN_of_ordering? (lt_iff_ordering?.mp h)).1
  have number : (ofWindow m window).upper.isNaN = false :=
    isNaN_add_of_isFinite number' finite
  exact lt_of_le_of_lt (add_mono number number' width) h

end Wider

/-! ### The rules on two records -/

/-- Of two rules with two sides each, the one whose sides lie further out fires only where the other
one does. The side that is asked first hides nothing as long as the nearer sides are apart. -/
theorem Hit.exists_sameVote_of_sides {low high low' high' : Prop} [Decidable low] [Decidable high]
    [Decidable low'] [Decidable high'] {buy sell buy' sell' hit : Hit} (lower : low' → low)
    (upper : high' → high) (apart : high → ¬ low) (buys : buy.SameVote buy')
    (sells : sell.SameVote sell')
    (fires : (if low' then some buy' else if high' then some sell' else none) = some hit) :
    ∃ hit', (if low then some buy else if high then some sell else none) = some hit' ∧
      hit'.SameVote hit := by
  by_cases below : low'
  · rw [if_pos below] at fires
    obtain rfl := Option.some.inj fires
    exact ⟨buy, if_pos (lower below), buys⟩
  · rw [if_neg below] at fires
    by_cases above : high'
    · rw [if_pos above] at fires
      obtain rfl := Option.some.inj fires
      refine ⟨sell, ?_, sells⟩
      rw [if_neg (apart (upper above)), if_pos (upper above)]
    · rw [if_neg above] at fires
      cases fires

namespace Rule

variable {a b a' b' : Annotated} {hit : Hit}

/-- A reading beyond thresholds further out is beyond the nearer ones, and those ascend. -/
theorem rsiExtremes_of_looser {loose tight : Thresholds} (faultless : tight.fault? = none)
    (low : loose.oversold ≤ tight.oversold) (high : tight.overbought ≤ loose.overbought)
    (same : a.rsi = a'.rsi) (fires : (rsiExtremes loose).judge a b = some hit) :
    ∃ hit', (rsiExtremes tight).judge a' b' = some hit' ∧ hit'.SameVote hit := by
  have ascend : tight.oversold < tight.overbought := by
    rw [Thresholds.fault?, ite_eq_left_iff] at faultless
    by_contra level
    cases faultless fun demands => level demands.2.1
  cases found : a'.rsi with
  | none =>
      simp only [rsiExtremes, same, found] at fires
      cases fires
  | some reading =>
      simp only [rsiExtremes, same, found, Option.bind_eq_bind, Option.bind_some] at fires ⊢
      refine Hit.exists_sameVote_of_sides (fun below => lt_of_lt_of_le below low)
        (fun above => lt_of_le_of_lt high above) (fun above below => ?_) (by exact ⟨rfl, rfl⟩)
        (by exact ⟨rfl, rfl⟩) fires
      exact not_lt_of_lt (lt_of_lt_of_le ascend (le_of_lt above)) below

/-- A close outside wider bands is outside the bands, and those are ordered. -/
theorem bollingerBreach_of_wider {m m' : Float} (ok : IsMultiplier m) (ok' : IsMultiplier m')
    (wider : m ≤ m') (pair : Annotated.WidthsApart m' m a a')
    (fires : bollingerBreach.judge a b = some hit) :
    ∃ hit', bollingerBreach.judge a' b' = some hit' ∧ hit'.SameVote hit := by
  obtain ⟨window?, wide, narrow⟩ := pair.bands
  cases window? with
  | none =>
      simp only [bollingerBreach, wide] at fires
      cases fires
  | some window =>
      simp only [bollingerBreach, wide, narrow, pair.bar, Option.map_some, Option.bind_eq_bind,
        Option.bind_some] at fires ⊢
      refine Hit.exists_sameVote_of_sides (Bands.lt_lower_of_wider ok ok' wider)
        (Bands.upper_lt_of_wider ok ok' wider) (fun above below => ?_) ⟨rfl, rfl⟩ ⟨rfl, rfl⟩ fires
      have number := (isNaN_of_ordering? (lt_iff_ordering?.mp below)).2
      have number' := (isNaN_of_ordering? (lt_iff_ordering?.mp above)).1
      have order : (Bands.ofWindow m window).lower ≤ (Bands.ofWindow m window).upper :=
        le_trans (Bands.lower_le_middle ok number) (Bands.middle_le_upper ok number')
      exact not_lt_of_lt (lt_of_le_of_lt order above) below

/-- The crossover rule reads the convergence alone. -/
theorem macdCrossover_of_same (current : a.macd = a'.macd) (previous : b.macd = b'.macd) :
    macdCrossover.judge a b = macdCrossover.judge a' b' := by
  simp only [macdCrossover, current, previous]

end Rule

/-! ### Two composers -/

namespace Composer

/-- The composer with another width of the bands. -/
def withMultiplier (c : Composer) (m : Float) (ok : IsMultiplier m) : Composer :=
  { c with bollinger := ⟨c.bollinger.period, m, c.bollinger.period_pos, ok⟩ }

/-- Settings that differ in the multiplier alone give composers that differ in it alone. -/
theorem ofFaultless_withMultiplier {s s' : IndicatorSettings} {m : Float} (h : s.fault? = none)
    (h' : s'.fault? = none) (ok : IsMultiplier m)
    (same : s' = { s with bollingerMultiplier := m }) :
    ofFaultless s' h' = (ofFaultless s h).withMultiplier m ok := by
  subst same
  rfl

/-- The closes that the bands at a place are made of, if there are enough. -/
def bandWindow? (c : Composer) (bars : List Bar) (i : Nat) : Option (List Float) :=
  if i + 1 < min c.bollinger.period 2 then none
  else some (Series.windowAt c.bollinger.period (bars.map (·.close)) i)

variable (c : Composer) {bars : List Bar} {i : Nat} {a b : Annotated} {m : Float}
  (ok : IsMultiplier m)

theorem bollinger_of_annotate (found : (c.annotate bars)[i]? = some a) :
    a.bollinger = (c.bandWindow? bars i).map (Bands.ofWindow c.bollinger.multiplier) := by
  have inside : i < (bars.map (·.close)).length := by
    have bound := (List.getElem?_eq_some_iff.mp found).1
    rwa [length_annotate, ← List.length_map] at bound
  have place := Annotated.getElem?_of_column (c.annotate_bollinger bars) found
  rw [c.bollinger.readsWindows.getElem?_eq _ i inside] at place
  rw [← Option.some.inj place, bandWindow?]
  split <;> rfl

/-- Only the outer bands depend on the multiplier. -/
theorem sameButOuterBands_annotate (ha : ((c.withMultiplier m ok).annotate bars)[i]? = some a)
    (hb : (c.annotate bars)[i]? = some b) : a.SameButOuterBands b where
  bar := Annotated.eq_of_column
    (((c.withMultiplier m ok).annotate_bar bars).trans (c.annotate_bar bars).symm) ha hb
  date := Annotated.eq_of_column
    (((c.withMultiplier m ok).annotate_date bars).trans (c.annotate_date bars).symm) ha hb
  sma := Annotated.eq_of_column
    (((c.withMultiplier m ok).annotate_sma bars).trans (c.annotate_sma bars).symm) ha hb
  emaFast := Annotated.eq_of_column
    (((c.withMultiplier m ok).annotate_emaFast bars).trans (c.annotate_emaFast bars).symm) ha hb
  emaSlow := Annotated.eq_of_column
    (((c.withMultiplier m ok).annotate_emaSlow bars).trans (c.annotate_emaSlow bars).symm) ha hb
  rsi := Annotated.eq_of_column
    (((c.withMultiplier m ok).annotate_rsi bars).trans (c.annotate_rsi bars).symm) ha hb
  middle := by
    have mean (m : Float) : (fun b : Bands => b.middle) ∘ Bands.ofWindow m = Series.mean := rfl
    rw [(c.withMultiplier m ok).bollinger_of_annotate ha, c.bollinger_of_annotate hb,
      Option.map_map, Option.map_map, mean, mean]
    rfl
  macd := Annotated.eq_of_column
    (((c.withMultiplier m ok).annotate_macd bars).trans (c.annotate_macd bars).symm) ha hb

/-- The records of the two runs differ in the multiplier of their bands alone. -/
theorem widthsApart_annotate (bars : List Bar) :
    List.Forall₂ (Annotated.WidthsApart m c.bollinger.multiplier)
      ((c.withMultiplier m ok).annotate bars) (c.annotate bars) :=
  forall₂_annotate fun {i _ _} ha hb =>
    { toSameButOuterBands := c.sameButOuterBands_annotate ok ha hb
      bands := ⟨c.bandWindow? bars i, (c.withMultiplier m ok).bollinger_of_annotate ha,
        c.bollinger_of_annotate hb⟩ }

end Composer

/-- Looser settings only silence rules. Given two faultless settings that differ at most in a
greater multiplier of the bands, a lower oversold and a higher overbought threshold, and any history,
also one with infinite closes and NaN: the records of both runs are the same but for the outer bands,
and each standard rule fires under the looser settings only where it fires under the tighter ones,
with the same direction and strength. -/
theorem looser_settings_only_silence {loose tight : Settings} (valid : loose.fault? = none)
    (valid' : tight.fault? = none) (looser : loose.LooserThan tight) :
    ∃ d c, Composer.make loose.indicators = .ok d ∧ Composer.make tight.indicators = .ok c ∧
      ∀ bars : List Bar,
        List.Forall₂ Annotated.SameButOuterBands (d.annotate bars) (c.annotate bars) ∧
        List.Forall₂ (fun r r' => r.FiresOnlyWith (d.annotate bars) r' (c.annotate bars))
          (Rule.standard loose.thresholds) (Rule.standard tight.thresholds) := by
  obtain ⟨h, -⟩ := Settings.fault?_eq_none_iff.mp valid
  obtain ⟨h', faultless⟩ := Settings.fault?_eq_none_iff.mp valid'
  have ok := IndicatorSettings.multiplier_ok h
  refine ⟨_, _, Composer.make_eq_ok_iff.mpr ⟨h, rfl⟩, Composer.make_eq_ok_iff.mpr ⟨h', rfl⟩,
    fun bars => ?_⟩
  rw [Composer.ofFaultless_withMultiplier h' h ok looser.periods]
  have wider : (Composer.ofFaultless tight.indicators h').bollinger.multiplier
      ≤ loose.indicators.bollingerMultiplier := looser.multiplier
  generalize Composer.ofFaultless tight.indicators h' = c at wider
  have records := c.widthsApart_annotate ok bars
  refine ⟨records.imp fun _ _ pair => pair.toSameButOuterBands, .cons ?rsi (.cons ?bands
    (.cons ?macd .nil))⟩
  case rsi =>
    exact .of_forall₂ records fun pair _ fires =>
      Rule.rsiExtremes_of_looser faultless looser.oversold looser.overbought pair.rsi fires
  case bands =>
    exact .of_forall₂ records fun pair _ fires =>
      Rule.bollingerBreach_of_wider c.bollinger.multiplier_ok ok wider pair fires
  case macd =>
    refine .of_forall₂ records fun pair previous fires => ⟨_, ?_, rfl, rfl⟩
    rwa [← Rule.macdCrossover_of_same pair.macd previous.macd]

/-- Three closes, the last of which is above the upper band even at a multiplier of 1.2. So it is
at a multiplier of 1, and the vote is the same. -/
theorem looser_settings_only_silence_breach :
    let tight : Settings := { indicators := { bollingerPeriod := 3, bollingerMultiplier := 1 } }
    let loose : Settings :=
      { indicators := { bollingerPeriod := 3, bollingerMultiplier := 1.2 }
        thresholds := { oversold := 20, overbought := 80 } }
    let bars : List Bar := [1, 1, 4].map fun p => ⟨.unix 0, p, p, p, p, none⟩
    ∃ d c, Composer.make loose.indicators = .ok d ∧ Composer.make tight.indicators = .ok c ∧
      ∃ hit hit', Rule.bollingerBreach.hitAt (d.annotate bars) 2 = some hit ∧
        Rule.bollingerBreach.hitAt (c.annotate bars) 2 = some hit' ∧ hit'.SameVote hit := by
  intro tight loose bars
  have valid : loose.fault? = none := by decide
  have valid' : tight.fault? = none := by decide
  have looser : loose.LooserThan tight := ⟨rfl, by decide, by decide, by decide⟩
  obtain ⟨d, c, made, made', runs⟩ := looser_settings_only_silence valid valid' looser
  obtain ⟨h, rfl⟩ := Composer.make_eq_ok_iff.mp made
  obtain ⟨-, rules⟩ := runs bars
  have fires : (Rule.bollingerBreach.hitAt
      ((Composer.ofFaultless loose.indicators (by decide)).annotate bars) 2).isSome = true := by
    decide +kernel
  obtain ⟨hit, fires⟩ := Option.isSome_iff_exists.mp fires
  cases rules with
  | cons rsi rules =>
      cases rules with
      | cons bands rules =>
          obtain ⟨hit', fires', vote⟩ := bands 2 hit fires
          exact ⟨_, c, made, made', hit, hit', fires, fires', vote⟩

end PriceSignals
