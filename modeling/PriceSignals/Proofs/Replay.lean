/-
Module: PriceSignals.Proofs.Replay
Purpose: Replaying the beginning of a history gives the records and the verdict that were live when
  the history ended there.
Main exports:
  Composer.causal_annotate, replay_eq_live
-/
import PriceSignals.Proofs.Columns
import PriceSignals.Verdict

namespace PriceSignals

open Series (Causal)

/-- A composer does not look ahead. Each of its columns is the column of the whole history, cut to
the same length, because the kernel behind it is causal. -/
theorem Composer.causal_annotate (c : Composer) : Causal c.annotate where
  length_eq := c.length_annotate
  take_eq bars n := by
    apply Annotated.eq_of_columns
    · rw [List.map_take, annotate_bar, annotate_bar]
    · rw [List.map_take, annotate_date, annotate_date, List.map_take]
    · rw [List.map_take, annotate_sma, annotate_sma, List.map_take, c.sma.causal_values.take_eq]
    · rw [List.map_take, annotate_emaFast, annotate_emaFast, List.map_take,
        c.emaFast.causal_values.take_eq]
    · rw [List.map_take, annotate_emaSlow, annotate_emaSlow, List.map_take,
        c.emaSlow.causal_values.take_eq]
    · rw [List.map_take, annotate_rsi, annotate_rsi, List.map_take, c.rsi.causal_values.take_eq]
    · rw [List.map_take, annotate_bollinger, annotate_bollinger, List.map_take,
        c.bollinger.causal_values.take_eq]
    · rw [List.map_take, annotate_macd, annotate_macd, List.map_take, c.causal_macd.take_eq]

/-- No look-ahead, replay equals live: annotating the first `n` bars of a history gives, record by
record and field by field, the first `n` records of the annotated history, and so the same verdict
under any rules. Nothing is used of the arithmetic of doubles. -/
theorem replay_eq_live (c : Composer) (bars : List Bar) (n : Nat) :
    c.annotate (bars.take n) = (c.annotate bars).take n ∧
      ∀ rules : List Rule,
        Verdict.of rules (c.annotate (bars.take n))
          = Verdict.of rules ((c.annotate bars).take n) := by
  have records : c.annotate (bars.take n) = (c.annotate bars).take n :=
    c.causal_annotate.take_eq bars n
  refine ⟨records, fun rules => ?_⟩
  rw [records]

end PriceSignals
