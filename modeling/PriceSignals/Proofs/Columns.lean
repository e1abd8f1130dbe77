/-
Module: PriceSignals.Proofs.Columns
Purpose: An annotated history read column by column. Every column is the series of one indicator
  over the closes, although the composer shares series between indicators and looks them up by
  place.
Main exports:
  map_seq_eq, Annotated.eq_of_columns, Composer.annotate_bar, Composer.annotate_date,
  Composer.annotate_sma, Composer.annotate_emaFast, Composer.annotate_emaSlow,
  Composer.annotate_rsi, Composer.annotate_bollinger, Composer.causal_macd, Composer.annotate_macd,
  Composer.make_eq_ok_iff
-/
import PriceSignals.Annotation
import PriceSignals.Proofs.Causality

namespace PriceSignals

/-- Two lists of records that agree in two columns agree in what is made of both columns. The
columns may hold functions, so that a record is made of its fields one by one. -/
theorem map_seq_eq {α β ρ : Type} {xs ys : List ρ} {f : ρ → α → β} {g : ρ → α}
    (functions : xs.map f = ys.map f) (arguments : xs.map g = ys.map g) :
    (xs.map fun r => f r (g r)) = ys.map fun r => f r (g r) := by
  have zipped : ∀ rs : List ρ, (rs.map fun r => f r (g r))
      = (rs.map f).zipWith (fun h a => h a) (rs.map g) := by
    intro rs
    rw [List.zipWith_map, List.zipWith_self]
  rw [zipped, zipped, functions, arguments]

/-- A history is known when each of its columns is. -/
theorem Annotated.eq_of_columns {xs ys : List Annotated}
    (bar : xs.map (·.bar) = ys.map (·.bar)) (date : xs.map (·.date) = ys.map (·.date))
    (sma : xs.map (·.sma) = ys.map (·.sma)) (emaFast : xs.map (·.emaFast) = ys.map (·.emaFast))
    (emaSlow : xs.map (·.emaSlow) = ys.map (·.emaSlow)) (rsi : xs.map (·.rsi) = ys.map (·.rsi))
    (bollinger : xs.map (·.bollinger) = ys.map (·.bollinger))
    (macd : xs.map (·.macd) = ys.map (·.macd)) : xs = ys := by
  have makers : (xs.map fun a => Annotated.mk a.bar) = ys.map fun a => Annotated.mk a.bar := by
    have made := congrArg (List.map Annotated.mk) bar
    rw [List.map_map, List.map_map] at made
    exact made
  have records := map_seq_eq (map_seq_eq (map_seq_eq (map_seq_eq (map_seq_eq (map_seq_eq
    (map_seq_eq makers date) sma) emaFast) emaSlow) rsi) bollinger) macd
  calc xs = xs.map id := (List.map_id xs).symm
    _ = ys.map id := records
    _ = ys := List.map_id ys

/-- Records that are made place by place have a series as a column if each record reads its own
place of the series. -/
theorem map_mapIdx_eq {α β ρ : Type} {record : Nat → α → ρ} {field : ρ → β} {places : List α}
    {series : List β} (same : series.length = places.length)
    (reads : ∀ i a b, places[i]? = some a → series[i]? = some b → field (record i a) = b) :
    (places.mapIdx record).map field = series := by
  apply List.ext_getElem
  · simp [same]
  · intro i _ bound
    rw [List.getElem_map, List.getElem_mapIdx]
    exact reads i _ _ (List.getElem?_eq_getElem (same ▸ bound)) (List.getElem?_eq_getElem bound)

/-! ### The columns -/

/-- The values of an exponential average are its series, none of them absent. -/
theorem Indicator.Ema.getElem?_series_of_values (k : Ema) {closes : List Float} {i : Nat}
    {v : Option Float} (h : (k.values closes)[i]? = some v) : (k.series closes)[i]? = v := by
  rw [values, List.getElem?_map, Option.map_eq_some_iff] at h
  obtain ⟨average, found, rfl⟩ := h
  exact found

namespace Composer

open Indicator

variable (c : Composer) (bars : List Bar)

theorem annotate_bar : (c.annotate bars).map (·.bar) = bars := by
  refine map_mapIdx_eq rfl fun i a b ha hb => ?_
  exact Option.some.inj (ha.symm.trans hb)

theorem annotate_date : (c.annotate bars).map (·.date) = bars.map (·.instant?) := by
  refine map_mapIdx_eq (by simp) fun i a b ha hb => ?_
  simpa [ha] using hb

theorem annotate_sma : (c.annotate bars).map (·.sma) = c.sma.values (bars.map (·.close)) := by
  refine map_mapIdx_eq ?_ fun i a b ha hb => ?_
  · rw [c.sma.causal_values.length_eq, List.length_map]
  · simp [hb]

theorem annotate_emaFast :
    (c.annotate bars).map (·.emaFast) = c.emaFast.values (bars.map (·.close)) := by
  refine map_mapIdx_eq ?_ fun i a b ha hb => ?_
  · rw [c.emaFast.causal_values.length_eq, List.length_map]
  · simpa using c.emaFast.getElem?_series_of_values hb

theorem annotate_emaSlow :
    (c.annotate bars).map (·.emaSlow) = c.emaSlow.values (bars.map (·.close)) := by
  refine map_mapIdx_eq ?_ fun i a b ha hb => ?_
  · rw [c.emaSlow.causal_values.length_eq, List.length_map]
  · simpa using c.emaSlow.getElem?_series_of_values hb

theorem annotate_rsi : (c.annotate bars).map (·.rsi) = c.rsi.values (bars.map (·.close)) := by
  refine map_mapIdx_eq ?_ fun i a b ha hb => ?_
  · rw [c.rsi.causal_values.length_eq, List.length_map]
  · simp [hb]

/-- The simple average may stand in for the middle of the bands where the periods agree. -/
theorem bollinger_valuesFrom_sma (h : c.bollinger.period = c.sma.period) (closes : List Float) :
    c.bollinger.valuesFrom closes (c.sma.values closes) = c.bollinger.values closes := by
  have same : c.sma = ⟨c.bollinger.period, c.bollinger.period_pos⟩ := by
    cases hs : c.sma
    simp_all
  rw [same, Bollinger.values]

theorem annotate_bollinger :
    (c.annotate bars).map (·.bollinger) = c.bollinger.values (bars.map (·.close)) := by
  refine map_mapIdx_eq ?_ fun i a b ha hb => ?_
  · rw [c.bollinger.causal_values.length_eq, List.length_map]
  · by_cases h : c.bollinger.period = c.sma.period
    · simp [h, c.bollinger_valuesFrom_sma h, hb]
    · simp [h, hb]

/-- The averages that the convergence is given do not look ahead, and so it does not. -/
theorem causal_macd :
    Series.Causal fun closes =>
      c.macd.valuesFrom (c.emaFast.series closes) (c.emaSlow.series closes) :=
  c.macd.causal_valuesFrom c.emaFast.causal_series c.emaSlow.causal_series

theorem annotate_macd :
    (c.annotate bars).map (·.macd)
      = c.macd.valuesFrom (c.emaFast.series (bars.map (·.close)))
          (c.emaSlow.series (bars.map (·.close))) := by
  refine map_mapIdx_eq ?_ fun i a b ha hb => ?_
  · rw [c.causal_macd.length_eq, List.length_map]
  · simp [hb]

/-! ### Composers of settings -/

/-- Settings give a composer exactly where they have no fault. -/
theorem make_eq_ok_iff {s : IndicatorSettings} {c : Composer} :
    make s = .ok c ↔ ∃ h : s.fault? = none, c = ofFaultless s h := by
  unfold make
  split
  · rename_i fault found
    simp [found]
  · rename_i found
    simp only [Except.ok.injEq]
    exact ⟨fun h => ⟨found, h.symm⟩, fun ⟨_, h⟩ => h.symm⟩

end Composer

end PriceSignals
