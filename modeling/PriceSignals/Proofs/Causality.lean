/-
Module: PriceSignals.Proofs.Causality
Purpose: No indicator looks ahead. What it makes of the beginning of a history is not changed by
  what follows.
Main exports:
  Series.Causal, Sma.causal_values, Bollinger.causal_valuesFrom, Ema.causal_series,
  Macd.causal_valuesFrom, Rsi.causal_values
-/
import PriceSignals.Indicator.Bollinger
import PriceSignals.Indicator.Macd
import PriceSignals.Indicator.Rsi

namespace PriceSignals

/-! ### Causal maps of series -/

namespace Series

/-- A map of series that gives one value for each place and does not look ahead: the values of the
first places are those of the series that ends there. -/
structure Causal {α β : Type} (f : List α → List β) : Prop where
  length_eq : ∀ xs, (f xs).length = xs.length
  take_eq : ∀ xs n, f (xs.take n) = (f xs).take n

section Laws

variable {α β γ δ : Type}

/-- What is done place by place is causal. -/
theorem causal_map (g : α → β) : Causal (List.map g) where
  length_eq := by simp
  take_eq := by simp

/-- One causal map after another is causal. -/
theorem Causal.comp {g : List β → List γ} {f : List α → List β} (hg : Causal g) (hf : Causal f) :
    Causal fun xs => g (f xs) where
  length_eq xs := by rw [hg.length_eq, hf.length_eq]
  take_eq xs n := by rw [hf.take_eq, hg.take_eq]

/-- Two causal maps may be combined place by place. -/
theorem Causal.zipWith {f : List α → List β} {g : List α → List γ} (h : β → γ → δ)
    (hf : Causal f) (hg : Causal g) : Causal fun xs => (f xs).zipWith h (g xs) where
  length_eq xs := by simp [hf.length_eq, hg.length_eq]
  take_eq xs n := by rw [hf.take_eq, hg.take_eq, List.take_zipWith]

end Laws

/-! ### Trailing windows -/

theorem length_trailing {α β : Type} (f : List α → β) (seen xs : List α) :
    (trailing f seen xs).length = xs.length := by
  induction xs generalizing seen with
  | nil => rfl
  | cons x xs ih => simp [trailing, ih]

theorem trailing_take {α β : Type} (f : List α → β) (seen xs : List α) (n : Nat) :
    trailing f seen (xs.take n) = (trailing f seen xs).take n := by
  induction xs generalizing seen n with
  | nil => simp [trailing]
  | cons x xs ih =>
      cases n with
      | zero => rfl
      | succ n => simp [trailing, ih]

/-- A value that is made of the values so far is causal, whatever is made of them. -/
theorem causal_trailing {α β : Type} (f : List α → β) : Causal (trailing f []) where
  length_eq := length_trailing f []
  take_eq := trailing_take f []

/-! ### Changes -/

theorem length_changes (xs : List Float) : (changes xs).length = xs.length - 1 := by
  fun_induction changes xs with
  | case1 x y rest ih => simp [ih]
  | case2 xs short =>
      match xs, short with
      | [], _ => rfl
      | [x], _ => rfl
      | x :: y :: rest, short => exact absurd rfl (short x y rest)

/-- The changes among the first values are the first changes, one less. -/
theorem changes_take (xs : List Float) (n : Nat) :
    changes (xs.take (n + 1)) = (changes xs).take n := by
  fun_induction changes xs generalizing n with
  | case1 x y rest ih =>
      cases n with
      | zero => rfl
      | succ n => simpa [changes] using ih n
  | case2 xs short =>
      match xs, short with
      | [], _ => simp [changes]
      | [x], _ => simp [changes]
      | x :: y :: rest, short => exact absurd rfl (short x y rest)

end Series

/-! ### The indicators -/

namespace Indicator

open Series (Causal)

/-- The simple average does not look ahead. -/
theorem Sma.causal_values (k : Sma) : Causal k.values :=
  Series.causal_trailing k.latest?

/-- The bands do not look ahead where the averages they are given do not. -/
theorem Bollinger.causal_valuesFrom (k : Bollinger) {averages : List Float → List (Option Float)}
    (h : Causal averages) : Causal fun closes => k.valuesFrom closes (averages closes) :=
  (Series.causal_trailing k.latest?).zipWith _ h

/-- The bands do not look ahead. -/
theorem Bollinger.causal_values (k : Bollinger) : Causal k.values :=
  k.causal_valuesFrom (Sma.causal_values ⟨k.period, k.period_pos⟩)

namespace Ema

theorem length_follow (k : Ema) (average : Float) (values : List Float) :
    (k.follow average values).length = values.length := by
  induction values generalizing average with
  | nil => rfl
  | cons value rest ih => simp [follow, ih]

theorem follow_take (k : Ema) (average : Float) (values : List Float) (n : Nat) :
    k.follow average (values.take n) = (k.follow average values).take n := by
  induction values generalizing average n with
  | nil => simp [follow]
  | cons value rest ih =>
      cases n with
      | zero => rfl
      | succ n => simp [follow, ih]

/-- The exponential average does not look ahead: each value is made of the one before it. -/
theorem causal_series (k : Ema) : Causal k.series where
  length_eq values := by
    cases values with
    | nil => rfl
    | cons value rest => simp [series, length_follow]
  take_eq values n := by
    cases values with
    | nil => simp [series]
    | cons value rest =>
        cases n with
        | zero => rfl
        | succ n => simp [series, follow_take]

theorem causal_values (k : Ema) : Causal k.values :=
  (Series.causal_map some).comp k.causal_series

end Ema

/-- The convergence does not look ahead where the two averages it is given do not. The signal is
an average of a causal line. -/
theorem Macd.causal_valuesFrom (k : Macd) {fast slow : List Float → List Float}
    (hfast : Causal fast) (hslow : Causal slow) :
    Causal fun closes => k.valuesFrom (fast closes) (slow closes) := by
  have line : Causal fun closes => (fast closes).zipWith (· - ·) (slow closes) :=
    hfast.zipWith _ hslow
  have signal := (Ema.causal_series ⟨k.signal, k.signal_pos⟩).comp line
  exact line.zipWith _ signal

theorem Macd.causal_values (k : Macd) : Causal k.values :=
  k.causal_valuesFrom (Ema.causal_series ⟨k.fast, k.fast_pos⟩)
    (Ema.causal_series ⟨k.slow, k.slow_pos⟩)

namespace Rsi

theorem length_run (k : Rsi) (a : Averages) (changes : List Float) :
    (k.run a changes).length = changes.length + 1 := by
  induction changes generalizing a with
  | nil => rfl
  | cons change rest ih => simp [run, ih]

theorem run_take (k : Rsi) (a : Averages) (changes : List Float) (n : Nat) :
    k.run a (changes.take n) = (k.run a changes).take (n + 1) := by
  induction changes generalizing a n with
  | nil => simp [run]
  | cons change rest ih =>
      cases n with
      | zero => simp [run]
      | succ n => simp [run, ih]

/-- The first averages depend on the first `period` changes only. -/
theorem start_take (k : Rsi) (changes : List Float) {n : Nat} (h : k.period ≤ n) :
    k.start (changes.take n) = k.start changes := by
  simp only [start, List.take_take, Nat.min_eq_left h]

/-- A history of no more than `period` closes has no value at all. -/
theorem values_of_short (k : Rsi) {closes : List Float} (h : closes.length ≤ k.period) :
    k.values closes = List.replicate closes.length none := by
  rw [values, if_pos h, List.map_const']

/-- A longer history has its first value behind the first `period` closes. -/
theorem values_of_long (k : Rsi) {closes : List Float} (h : k.period < closes.length) :
    k.values closes = List.replicate k.period none
      ++ (k.run (k.start (Series.changes closes)) ((Series.changes closes).drop k.period)).map
          fun a => some (index a) := by
  simp [values, Nat.not_le.mpr h]

theorem length_values (k : Rsi) (closes : List Float) :
    (k.values closes).length = closes.length := by
  rcases Nat.lt_or_ge k.period closes.length with long | short
  · simp only [k.values_of_long long, List.length_append, List.length_replicate, List.length_map,
      length_run, List.length_drop, Series.length_changes]
    omega
  · simp [k.values_of_short short]

theorem values_take (k : Rsi) (closes : List Float) (n : Nat) :
    k.values (closes.take n) = (k.values closes).take n := by
  -- The interesting cut is behind the first value and before the end.
  rcases Nat.lt_or_ge k.period closes.length with long | short
  · rcases Nat.lt_or_ge k.period n with behind | within
    · obtain ⟨m, rfl⟩ : ∃ m, n = m + 1 := ⟨n - 1, by omega⟩
      have period_le : k.period ≤ m := by omega
      have cut : k.period < (closes.take (m + 1)).length := by
        simp only [List.length_take]
        omega
      have rest_take : ∀ a : Averages, ∀ changes : List Float,
          k.run a ((changes.take m).drop k.period)
            = (k.run a (changes.drop k.period)).take (m + 1 - k.period) := by
        intro a changes
        rw [List.drop_take, run_take, Nat.succ_sub period_le]
      have lead_take : (List.replicate k.period (none : Option Float)).take (m + 1)
          = List.replicate k.period none := by
        rw [List.take_replicate, Nat.min_eq_right (by omega)]
      rw [k.values_of_long cut, k.values_of_long long, Series.changes_take,
        k.start_take _ period_le, rest_take, List.map_take, List.take_append, lead_take,
        List.length_replicate]
    · have cut : (closes.take n).length ≤ k.period := by
        simp only [List.length_take]
        omega
      rw [k.values_of_short cut, k.values_of_long long, List.take_append_of_le_length (by simpa),
        List.take_replicate, List.length_take, Nat.min_eq_left within]
      congr 1
      omega
  · have cut : (closes.take n).length ≤ k.period := by
      simp only [List.length_take]
      omega
    rw [k.values_of_short cut, k.values_of_short short, List.take_replicate, List.length_take]

/-- The strength index does not look ahead, also where it has no value yet. -/
theorem causal_values (k : Rsi) : Causal k.values where
  length_eq := k.length_values
  take_eq := k.values_take

end Rsi

end Indicator

end PriceSignals
