/-
Module: PriceSignals.Proofs.Crossover
Purpose: The crossover rule over a whole run. While no value is NaN, the latest vote of the rule
  always names the side of the signal that the line is on.
Main exports:
  Rule.voteAt, Rule.LatestVote, Convergence.On, Convergence.IsNumber, convergenceAt?,
  Rule.voteAt_macdCrossover, latestVote_of_on, crossover_never_missed
-/
import PriceSignals.Proofs.Columns
import PriceSignals.Proofs.FloatOrder
import PriceSignals.Proofs.Presence
import PriceSignals.Rule

namespace PriceSignals

open Indicator (Convergence Ema Macd)

/-! ### The votes of a rule over a run -/

namespace Rule

/-- What a rule votes for at a place of a history, being given the bar there and the one before it.
The first bar has none before it. -/
def voteAt (r : Rule) (series : List Annotated) : Nat → Option Direction
  | 0 => none
  | k + 1 => do
    let current ← series[k + 1]?
    let previous ← series[k]?
    let hit ← r.judge current previous
    return hit.direction

/-- The latest vote up to a place is for a direction: the rule has voted for it, and has been silent
from then on. -/
def LatestVote (r : Rule) (series : List Annotated) (i : Nat) (d : Direction) : Prop :=
  ∃ j, 1 ≤ j ∧ j ≤ i ∧ r.voteAt series j = some d ∧
    ∀ k, j < k → k ≤ i → r.voteAt series k = none

/-- A vote is the latest one where it is given. -/
theorem LatestVote.of_voteAt {r : Rule} {series : List Annotated} {i : Nat} {d : Direction}
    (h : r.voteAt series (i + 1) = some d) : r.LatestVote series (i + 1) d := by
  refine ⟨i + 1, Nat.le_add_left 1 i, Nat.le_refl _, h, ?_⟩
  intro k after upto
  omega

/-- A vote stays the latest one while the rule is silent. -/
theorem LatestVote.of_silent {r : Rule} {series : List Annotated} {i : Nat} {d : Direction}
    (latest : r.LatestVote series i d) (silent : r.voteAt series (i + 1) = none) :
    r.LatestVote series (i + 1) d := by
  obtain ⟨j, first, upto, vote, since⟩ := latest
  refine ⟨j, first, Nat.le_succ_of_le upto, vote, ?_⟩
  intro k after within
  rcases Nat.lt_or_eq_of_le within with before | rfl
  · exact since k after (Nat.le_of_lt_succ before)
  · exact silent

end Rule

/-! ### The sides of the signal -/

namespace Indicator.Convergence

/-- The line is on the side of the signal that a direction stands for. -/
def On (m : Convergence) : Direction → Prop
  | .buy => m.signal < m.line
  | .sell => m.line < m.signal

/-- Neither the line nor the signal is NaN. -/
structure IsNumber (m : Convergence) : Prop where
  line : m.line.isNaN = false
  signal : m.signal.isNaN = false

instance (m : Convergence) : Decidable m.IsNumber :=
  decidable_of_iff (m.line.isNaN = false ∧ m.signal.isNaN = false)
    ⟨fun h => ⟨h.1, h.2⟩, fun h => ⟨h.line, h.signal⟩⟩

/-- The line is on one side at most. -/
theorem On.unique {m : Convergence} {d e : Direction} (hd : m.On d) (he : m.On e) : d = e := by
  cases d with
  | buy =>
      cases e with
      | buy => rfl
      | sell => exact absurd he (Binary64.not_lt_of_lt hd)
  | sell =>
      cases e with
      | buy => exact absurd he (Binary64.not_lt_of_lt hd)
      | sell => rfl

/-- A line that is equal to its signal is on neither side. -/
theorem not_on_of_eq {m : Convergence} (h : m.line = m.signal) (d : Direction) : ¬ m.On d := by
  intro on
  cases d with
  | buy =>
      have below : m.signal < m.line := on
      rw [h] at below
      exact Binary64.not_lt_of_lt below below
  | sell =>
      have below : m.line < m.signal := on
      rw [h] at below
      exact Binary64.not_lt_of_lt below below

end Indicator.Convergence

/-! ### One step of the rule -/

/-- The convergence at a place of a history. -/
def convergenceAt? (series : List Annotated) (k : Nat) : Option Convergence :=
  series[k]?.bind (·.macd)

/-- The rule votes for a direction exactly where the line is on that side and was not before. The
new values need not be numbers, for a comparison that holds shows that they are. -/
theorem Rule.judge_macdCrossover {current previous : Annotated} {old new : Convergence}
    {d : Direction} (before : previous.macd = some old) (now : current.macd = some new)
    (number : old.IsNumber) :
    (Rule.macdCrossover.judge current previous).map (·.direction) = some d
      ↔ new.On d ∧ ¬ old.On d := by
  have up : old.line ≤ old.signal ↔ ¬ old.On .buy :=
    (Binary64.not_lt_iff_le number.signal number.line).symm
  have down : old.signal ≤ old.line ↔ ¬ old.On .sell :=
    (Binary64.not_lt_iff_le number.line number.signal).symm
  simp only [macdCrossover, before, now, Option.bind_eq_bind, Option.bind_some]
  constructor
  · intro fired
    split at fired
    · rename_i crossed
      cases fired
      exact ⟨crossed.2, up.mp crossed.1⟩
    · split at fired
      · rename_i crossed
        cases fired
        exact ⟨crossed.2, down.mp crossed.1⟩
      · cases fired
  · rintro ⟨on, off⟩
    cases d with
    | buy => rw [if_pos ⟨up.mpr off, on⟩, Option.map_some]
    | sell =>
        have not_buy : ¬ (old.line ≤ old.signal ∧ new.signal < new.line) := by
          intro crossed
          exact Binary64.not_lt_of_lt on crossed.2
        rw [if_neg not_buy, if_pos ⟨down.mpr off, on⟩, Option.map_some]

/-- At every place but the first, the rule votes for a direction exactly where the line has come to
that side. -/
theorem Rule.voteAt_macdCrossover {series : List Annotated} {k : Nat} {old new : Convergence}
    {d : Direction} (before : convergenceAt? series k = some old)
    (now : convergenceAt? series (k + 1) = some new) (number : old.IsNumber) :
    Rule.macdCrossover.voteAt series (k + 1) = some d ↔ new.On d ∧ ¬ old.On d := by
  obtain ⟨previous, hp, old_macd⟩ := Option.bind_eq_some_iff.mp before
  obtain ⟨current, hc, new_macd⟩ := Option.bind_eq_some_iff.mp now
  rw [← judge_macdCrossover old_macd new_macd number]
  cases hit : macdCrossover.judge current previous with
  | none => simp [voteAt, hp, hc, hit]
  | some hit => simp_all [voteAt]

/-! ### Whole runs -/

/-- What the rule is given up to a place: a convergence of numbers at every bar, and at the first
bar a line that is its own signal. -/
structure Seeded (series : List Annotated) (i : Nat) : Prop where
  number : ∀ k ≤ i, ∃ m, convergenceAt? series k = some m ∧ m.IsNumber
  seed : ∀ m, convergenceAt? series 0 = some m → m.line = m.signal

/-- What holds up to a place holds up to every earlier one. -/
theorem Seeded.before {series : List Annotated} {i : Nat} (run : Seeded series (i + 1)) :
    Seeded series i where
  number k upto := run.number k (Nat.le_succ_of_le upto)
  seed := run.seed

/-- The line being on one side, the latest vote is for that side. By induction on the run: either
the line was on that side already and the rule is silent, or it has just come there and the rule
votes. -/
theorem latestVote_of_on {series : List Annotated} {i : Nat} {m : Convergence} {d : Direction}
    (run : Seeded series i) (now : convergenceAt? series i = some m) (on : m.On d) :
    Rule.macdCrossover.LatestVote series i d := by
  induction i generalizing m with
  | zero => exact absurd on (Convergence.not_on_of_eq (run.seed m now) d)
  | succ i ih =>
      obtain ⟨old, before, number⟩ := run.number i (Nat.le_succ i)
      by_cases stayed : old.On d
      · have latest : Rule.macdCrossover.LatestVote series i d := ih run.before before stayed
        refine latest.of_silent ?_
        cases vote : Rule.macdCrossover.voteAt series (i + 1) with
        | none => rfl
        | some e =>
            obtain ⟨on_e, off_e⟩ := (Rule.voteAt_macdCrossover before now number).mp vote
            rw [on.unique on_e] at stayed
            exact absurd stayed off_e
      · have vote : Rule.macdCrossover.voteAt series (i + 1) = some d :=
          (Rule.voteAt_macdCrossover before now number).mpr ⟨on, stayed⟩
        exact Rule.LatestVote.of_voteAt vote

/-- The first bar on a side has the vote for that side. -/
theorem voteAt_of_first_on {series : List Annotated} {i : Nat} {m : Convergence} {d : Direction}
    (run : Seeded series i) (now : convergenceAt? series i = some m) (on : m.On d)
    (first : ∀ k < i, ∀ old ∈ convergenceAt? series k, ∀ e, ¬ old.On e) :
    Rule.macdCrossover.voteAt series i = some d := by
  cases i with
  | zero => exact absurd on (Convergence.not_on_of_eq (run.seed m now) d)
  | succ i =>
      obtain ⟨old, before, number⟩ := run.number i (Nat.le_succ i)
      have off : ¬ old.On d := first i (Nat.lt_succ_self i) old before d
      exact (Rule.voteAt_macdCrossover before now number).mpr ⟨on, off⟩

/-! ### Annotated histories -/

/-- The signal average starts at the line. -/
theorem Indicator.Macd.line_eq_signal_of_first (k : Macd) {fast slow : List Float}
    {m : Convergence} (h : (k.valuesFrom fast slow)[0]? = some (some m)) : m.line = m.signal := by
  cases fast with
  | nil => simp [valuesFrom] at h
  | cons f fast =>
      cases slow with
      | nil => simp [valuesFrom] at h
      | cons s slow =>
          have seed : m = ⟨f - s, f - s, f - s - (f - s)⟩ := by
            simpa [valuesFrom, Ema.series] using h.symm
          rw [seed]

namespace Composer

theorem convergenceAt?_annotate (c : Composer) (bars : List Bar) (k : Nat) :
    convergenceAt? (c.annotate bars) k
      = (c.macd.valuesFrom (c.emaFast.series (bars.map (·.close)))
          (c.emaSlow.series (bars.map (·.close))))[k]?.join := by
  rw [← annotate_macd, List.getElem?_map, convergenceAt?]
  cases (c.annotate bars)[k]? <;> rfl

/-- Every bar has a convergence. -/
theorem exists_convergenceAt? (c : Composer) (bars : List Bar) {k : Nat}
    (inside : k < bars.length) : ∃ m, convergenceAt? (c.annotate bars) k = some m := by
  have bound := c.causal_macd.length_eq (bars.map (·.close))
  rw [List.length_map] at bound
  have found := List.getElem?_eq_getElem (bound ▸ inside)
  have present := (c.macd.beginsAt_valuesFrom _ _ k _ found).mpr (Nat.zero_le k)
  obtain ⟨m, hm⟩ := Option.isSome_iff_exists.mp present
  refine ⟨m, ?_⟩
  rw [convergenceAt?_annotate, found, hm, Option.join_some]

/-- Up to a place without NaN before, an annotated history is what the rule needs. -/
theorem seeded_annotate (c : Composer) (bars : List Bar) {i : Nat} (inside : i < bars.length)
    (numbers : ∀ k ≤ i, ∀ m ∈ convergenceAt? (c.annotate bars) k, m.IsNumber) :
    Seeded (c.annotate bars) i where
  number k upto := by
    obtain ⟨m, found⟩ := c.exists_convergenceAt? bars (Nat.lt_of_le_of_lt upto inside)
    exact ⟨m, found, numbers k upto m found⟩
  seed m found := by
    rw [convergenceAt?_annotate] at found
    exact c.macd.line_eq_signal_of_first (Option.join_eq_some_iff.mp found)

end Composer

/-- No crossing is missed and none is left stale. Where no line and no signal up to a bar is NaN, a
line above its signal means that the latest vote of the crossover rule was to buy, and a line
below it that the latest vote was to sell. The line starts on its signal, and the first bar at
which it leaves the signal has a vote. -/
theorem crossover_never_missed (c : Composer) (bars : List Bar) {i : Nat}
    (inside : i < bars.length)
    (numbers : ∀ k ≤ i, ∀ m ∈ convergenceAt? (c.annotate bars) k, m.IsNumber) :
    ∃ m, convergenceAt? (c.annotate bars) i = some m ∧
      (m.signal < m.line → Rule.macdCrossover.LatestVote (c.annotate bars) i .buy) ∧
      (m.line < m.signal → Rule.macdCrossover.LatestVote (c.annotate bars) i .sell) ∧
      (∀ seed ∈ convergenceAt? (c.annotate bars) 0, seed.line = seed.signal) ∧
      ∀ d, m.On d → (∀ k < i, ∀ old ∈ convergenceAt? (c.annotate bars) k, ∀ e, ¬ old.On e) →
        Rule.macdCrossover.voteAt (c.annotate bars) i = some d := by
  have run : Seeded (c.annotate bars) i := c.seeded_annotate bars inside numbers
  obtain ⟨m, now⟩ := c.exists_convergenceAt? bars inside
  refine ⟨m, now, ?_, ?_, run.seed, ?_⟩
  · intro above
    exact latestVote_of_on run now above
  · intro below
    exact latestVote_of_on run now below
  · intro d on first
    exact voteAt_of_first_on run now on first

/-- A close that rises and falls again: the rule has voted to buy at the second bar, and at the
third bar, where the line is still above its signal, this is the latest vote. -/
theorem crossover_never_missed_rise :
    let bars : List Bar := [10, 12, 11].map fun p => ⟨.unix 0, p, p, p, p, none⟩
    Rule.macdCrossover.LatestVote (Composer.standard.annotate bars) 2 .buy := by
  intro bars
  have numbers :
      ∀ k ≤ 2, ∀ m ∈ convergenceAt? (Composer.standard.annotate bars) k, m.IsNumber := by
    decide +kernel
  have above :
      ∀ m ∈ convergenceAt? (Composer.standard.annotate bars) 2, m.signal < m.line := by
    decide +kernel
  obtain ⟨m, now, buys, -⟩ :=
    crossover_never_missed Composer.standard bars (i := 2) (by decide) numbers
  exact buys (above m now)

end PriceSignals
