/-
Module: PriceSignals.Proofs.RunPairs
Purpose: Two annotated histories of one length, compared record by record. What is known of each
  pair of records is known at each place, and decides where rules fire on both.
Main exports:
  rel_getElem?, Annotated.getElem?_of_column, Annotated.eq_of_column, Annotated.rel_of_columns,
  Composer.forall₂_annotate, Ema.forall₂_series, Hit.SameVote, Rule.hitAt, Rule.FiresOnlyWith,
  Rule.FiresOnlyWith.of_forall₂
-/
import Mathlib.Data.List.Forall2
import PriceSignals.Proofs.Columns
import PriceSignals.Rule

namespace PriceSignals

/-! ### Records at one place -/

/-- Lists that are related one by one are related at each place. -/
theorem rel_getElem? {ρ σ : Type} {related : ρ → σ → Prop} {xs : List ρ} {ys : List σ}
    (h : List.Forall₂ related xs ys) (i : Nat) : Option.Rel related xs[i]? ys[i]? := by
  induction h generalizing i with
  | nil => exact .none
  | cons head tail ih =>
      cases i with
      | zero => exact .some head
      | succ i => exact ih i

namespace Annotated

section Column

variable {β : Type} {series xs ys : List Annotated} {field field' : Annotated → β}
  {column : List β} {i : Nat} {a b : Annotated}

/-- A record reads its own place of a column. -/
theorem getElem?_of_column (columns : series.map field = column) (found : series[i]? = some a) :
    column[i]? = some (field a) := by
  rw [← columns, List.getElem?_map, found]
  rfl

/-- Where two histories share a column, records at the same place have the same in it. -/
theorem eq_of_column (same : xs.map field = ys.map field') (ha : xs[i]? = some a)
    (hb : ys[i]? = some b) : field a = field' b :=
  Option.some.inj ((getElem?_of_column same ha).symm.trans (getElem?_of_column rfl hb))

/-- Where their columns are related one by one, records at the same place are. -/
theorem rel_of_columns {related : β → β → Prop}
    (columns : List.Forall₂ related (xs.map field) (ys.map field')) (ha : xs[i]? = some a)
    (hb : ys[i]? = some b) : related (field a) (field' b) := by
  have places := rel_getElem? columns i
  rw [getElem?_of_column rfl ha, getElem?_of_column rfl hb] at places
  cases places with
  | some place => exact place

end Column

end Annotated

/-- Two composers are compared record by record, given the same history. -/
theorem Composer.forall₂_annotate {related : Annotated → Annotated → Prop} {c d : Composer}
    {bars : List Bar}
    (places : ∀ {i : Nat} {a b : Annotated}, (c.annotate bars)[i]? = some a →
      (d.annotate bars)[i]? = some b → related a b) :
    List.Forall₂ related (c.annotate bars) (d.annotate bars) := by
  refine List.forall₂_iff_get.mpr ⟨by rw [length_annotate, length_annotate], fun i ha hb => ?_⟩
  exact places (List.getElem?_eq_getElem ha) (List.getElem?_eq_getElem hb)

/-- Related values have related averages, if one step keeps the relation. -/
theorem Indicator.Ema.forall₂_series (k : Ema) {related : Float → Float → Prop}
    {xs ys : List Float}
    (next : ∀ {average average' value value' : Float}, related average average' →
      related value value' → related (k.next average value) (k.next average' value'))
    (values : List.Forall₂ related xs ys) : List.Forall₂ related (k.series xs) (k.series ys) := by
  have follow {rest rest' : List Float} (later : List.Forall₂ related rest rest')
      {average average' : Float} (averages : related average average') :
      List.Forall₂ related (k.follow average rest) (k.follow average' rest') := by
    induction later generalizing average average' with
    | nil => exact .nil
    | cons value later ih => exact .cons (next averages value) (ih (next averages value))
  cases values with
  | nil => exact .nil
  | cons value later => exact .cons value (follow later value)

/-! ### Votes at one place -/

/-- Two votes are for one direction and of one strength. The reasons may be worded differently. -/
structure Hit.SameVote (hit other : Hit) : Prop where
  direction : hit.direction = other.direction
  strength : hit.strength = other.strength

namespace Rule

/-- What a rule makes of a place of a history, being given the bar there and the one before it. -/
def hitAt (r : Rule) (series : List Annotated) : Nat → Option Hit
  | 0 => none
  | k + 1 => do
    let current ← series[k + 1]?
    let previous ← series[k]?
    r.judge current previous

/-- Wherever a rule fires on one history, another rule fires on another history, with the same
vote. -/
def FiresOnlyWith (r : Rule) (series : List Annotated) (r' : Rule) (series' : List Annotated) :
    Prop :=
  ∀ i hit, r.hitAt series i = some hit →
    ∃ hit', r'.hitAt series' i = some hit' ∧ hit'.SameVote hit

/-- Two rules are compared on related records. -/
theorem FiresOnlyWith.of_forall₂ {r r' : Rule} {series series' : List Annotated}
    {related : Annotated → Annotated → Prop} (records : List.Forall₂ related series series')
    (judged : ∀ {a b a' b' : Annotated} {hit : Hit}, related a a' → related b b' →
      r.judge a b = some hit → ∃ hit', r'.judge a' b' = some hit' ∧ hit'.SameVote hit) :
    r.FiresOnlyWith series r' series' := by
  intro i hit fires
  cases i with
  | zero => cases fires
  | succ i =>
      have current := rel_getElem? records (i + 1)
      have previous := rel_getElem? records i
      simp only [hitAt, Option.bind_eq_bind, Option.bind_eq_some_iff] at fires ⊢
      obtain ⟨a, ha, b, hb, fires⟩ := fires
      rw [ha] at current
      rw [hb] at previous
      generalize series'[i + 1]? = new at current ⊢
      generalize series'[i]? = old at previous ⊢
      cases current with
      | some currents =>
          cases previous with
          | some previouses =>
              obtain ⟨hit', fires', vote⟩ := judged currents previouses fires
              exact ⟨hit', ⟨_, rfl, _, rfl, fires'⟩, vote⟩

end Rule

end PriceSignals
