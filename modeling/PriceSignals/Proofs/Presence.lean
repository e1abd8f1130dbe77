/-
Module: PriceSignals.Proofs.Presence
Purpose: Where the values of the indicators begin. Each series is absent for exactly as many closes
  as the lookback of its indicator says, and present from there on.
Main exports:
  Series.BeginsAt, Series.BeginsAt.length_takeWhile, Indicator.ExactLookback, Sma.beginsAt_values,
  Rsi.beginsAt_values, Bollinger.beginsAt_values, Ema.beginsAt_values, Macd.beginsAt_valuesFrom
-/
import PriceSignals.Proofs.Causality

namespace PriceSignals

/-! ### Series that begin at a place -/

namespace Series

/-- A series begins at a place: its values are absent before that place and present from there on.
Nothing is said of places behind its end. -/
def BeginsAt {α : Type} (values : List (Option α)) (n : Nat) : Prop :=
  ∀ i v, values[i]? = some v → (v.isSome = true ↔ n ≤ i)

section Begins

variable {α β γ δ : Type}

/-- A series without gaps begins at once. -/
theorem beginsAt_zero {values : List (Option α)} (h : ∀ v ∈ values, v.isSome = true) :
    BeginsAt values 0 := by
  intro i v hv
  exact iff_of_true (h v (List.mem_of_getElem? hv)) (Nat.zero_le i)

/-- The absent values at the front are counted by the place where the series begins, unless it ends
before. -/
theorem BeginsAt.length_takeWhile {values : List (Option α)} {n : Nat} (h : BeginsAt values n) :
    (values.takeWhile Option.isNone).length = min n values.length := by
  induction values generalizing n with
  | nil => simp
  | cons v rest ih =>
      have first : v.isSome = true ↔ n ≤ 0 := h 0 v rfl
      cases n with
      | zero =>
          obtain ⟨a, rfl⟩ := Option.isSome_iff_exists.mp (first.mpr (Nat.le_refl 0))
          simp
      | succ n =>
          have absent : v = none := by
            cases v with
            | none => rfl
            | some a => exact absurd (first.mp rfl) (by omega)
          have begins : BeginsAt rest n := by
            intro i w hw
            rw [h (i + 1) w hw]
            omega
          rw [absent, List.takeWhile_cons_of_pos rfl, List.length_cons, ih begins,
            List.length_cons]
          omega

/-- What a trailing map makes of a place is made of the values up to that place. -/
theorem getElem?_trailing (f : List α → β) (seen xs : List α) (i : Nat) :
    (trailing f seen xs)[i]? = xs[i]?.map fun _ => f ((xs.take (i + 1)).reverse ++ seen) := by
  induction xs generalizing seen i with
  | nil => rfl
  | cons x xs ih =>
      cases i with
      | zero => simp [trailing]
      | succ i => simp [trailing, ih]

/-- Two trailing maps that are combined place by place are one. -/
theorem zipWith_trailing (h : β → γ → δ) (f : List α → β) (g : List α → γ) (seen xs : List α) :
    (trailing f seen xs).zipWith h (trailing g seen xs)
      = trailing (fun seen => h (f seen) (g seen)) seen xs := by
  induction xs generalizing seen with
  | nil => rfl
  | cons x xs ih => simp [trailing, ih]

/-- A trailing map begins where the values so far are enough. -/
theorem beginsAt_trailing {f : List α → Option β} {n : Nat}
    (h : ∀ seen, seen ≠ [] → ((f seen).isSome = true ↔ n + 1 ≤ seen.length)) (xs : List α) :
    BeginsAt (trailing f [] xs) n := by
  intro i v hv
  rw [getElem?_trailing, Option.map_eq_some_iff] at hv
  obtain ⟨x, hx, rfl⟩ := hv
  have inside : i < xs.length := (List.getElem?_eq_some_iff.mp hx).1
  have length : ((xs.take (i + 1)).reverse ++ []).length = i + 1 := by
    simp only [List.append_nil, List.length_reverse, List.length_take]
    omega
  rw [h _ (List.ne_nil_of_length_eq_add_one length), length]
  omega

end Begins

theorem length_latest {α : Type} (size : Nat) (seen : List α) :
    (latest size seen).length = min size seen.length := by
  simp [latest]

end Series

/-! ### The indicators -/

namespace Indicator

open Series (BeginsAt)

/-- A lookback is exact: it counts the absent values at the front of every longer history. -/
def ExactLookback {α : Type} (values : List Float → List (Option α)) (lookback : Nat) : Prop :=
  ∀ closes, lookback < closes.length →
    ((values closes).takeWhile Option.isNone).length = lookback

theorem exactLookback_of_beginsAt {α : Type} {values : List Float → List (Option α)}
    {lookback : Nat} (causal : Series.Causal values)
    (begins : ∀ closes, BeginsAt (values closes) lookback) : ExactLookback values lookback := by
  intro closes long
  rw [(begins closes).length_takeWhile, causal.length_eq]
  omega

theorem Sma.isSome_latest? (k : Sma) (seen : List Float) :
    (k.latest? seen).isSome = true ↔ k.period ≤ seen.length := by
  simp only [latest?, Series.length_latest]
  split
  · simp
    omega
  · simp
    omega

theorem Sma.beginsAt_values (k : Sma) (closes : List Float) :
    BeginsAt (k.values closes) k.lookback := by
  refine Series.beginsAt_trailing (fun seen _ => ?_) closes
  have := k.period_pos
  rw [k.isSome_latest?, lookback]
  omega

namespace Bollinger

/-- The bands at a place are made of the closes up to that place. -/
theorem values_eq_trailing (k : Bollinger) (closes : List Float) :
    k.values closes
      = Series.trailing
          (fun seen => k.latest? seen (Sma.latest? ⟨k.period, k.period_pos⟩ seen)) [] closes :=
  Series.zipWith_trailing _ k.latest? (Sma.latest? ⟨k.period, k.period_pos⟩) [] closes

/-- One close is enough for a window of one, and two closes are enough for any window. -/
theorem isSome_latest? (k : Bollinger) {seen : List Float} (some_seen : seen ≠ []) :
    (k.latest? seen (Sma.latest? ⟨k.period, k.period_pos⟩ seen)).isSome = true
      ↔ min k.period 2 ≤ seen.length := by
  have positive : 0 < seen.length := List.length_pos_iff.mpr some_seen
  have average := Sma.isSome_latest? ⟨k.period, k.period_pos⟩ seen
  simp only [latest?, Series.length_latest]
  split
  · split
    · simp
      omega
    · simp
      omega
  · rw [Option.isSome_map, average]
    show k.period ≤ seen.length ↔ _
    omega

theorem beginsAt_values (k : Bollinger) (closes : List Float) :
    BeginsAt (k.values closes) k.lookback := by
  rw [k.values_eq_trailing]
  refine Series.beginsAt_trailing (fun seen some_seen => ?_) closes
  have := k.period_pos
  rw [k.isSome_latest? some_seen, lookback]
  omega

end Bollinger

theorem Ema.beginsAt_values (k : Ema) (closes : List Float) :
    BeginsAt (k.values closes) k.lookback := by
  refine Series.beginsAt_zero fun v hv => ?_
  obtain ⟨a, -, rfl⟩ := List.mem_map.mp hv
  rfl

/-- The convergence is there from the beginning, whatever averages it is made of. -/
theorem Macd.beginsAt_valuesFrom (k : Macd) (fast slow : List Float) :
    BeginsAt (k.valuesFrom fast slow) k.lookback := by
  refine Series.beginsAt_zero fun v hv => ?_
  obtain ⟨i, bound, rfl⟩ := List.mem_iff_getElem.mp hv
  simp [valuesFrom]

theorem Macd.beginsAt_values (k : Macd) (closes : List Float) :
    BeginsAt (k.values closes) k.lookback :=
  k.beginsAt_valuesFrom _ _

theorem Rsi.beginsAt_values (k : Rsi) (closes : List Float) :
    BeginsAt (k.values closes) k.lookback := by
  intro i v hv
  have inside : i < closes.length := by
    have bound := (List.getElem?_eq_some_iff.mp hv).1
    rwa [k.length_values] at bound
  rcases Nat.lt_or_ge k.period closes.length with long | short
  · rw [k.values_of_long long] at hv
    rcases Nat.lt_or_ge i k.period with before | after
    · rw [List.getElem?_append_left (by simpa), List.getElem?_replicate_of_lt before] at hv
      cases hv
      simpa [lookback] using before
    · rw [List.getElem?_append_right (by simpa), List.getElem?_map, Option.map_eq_some_iff] at hv
      obtain ⟨a, -, rfl⟩ := hv
      simpa [lookback] using after
  · rw [k.values_of_short short, List.getElem?_replicate_of_lt inside] at hv
    cases hv
    have : i < k.period := by omega
    simpa [lookback] using this

end Indicator

end PriceSignals
