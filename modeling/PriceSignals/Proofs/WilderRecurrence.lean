/-
Module: PriceSignals.Proofs.WilderRecurrence
Purpose: The relative strength index as a process that is shown one close after the other and keeps
  three numbers only. Nothing is used of the arithmetic of doubles: both compute the same.
Main exports:
  Watcher, Watcher.see, Watcher.report, Watcher.reports, Rsi.after, Rsi.getElem?_values, Tracks,
  Tracks.see, getElem?_reportsFrom, values_eq_reports, rsi_eq_online_process
-/
import PriceSignals.Proofs.IndexedKernels

namespace PriceSignals

theorem Series.total_map_concat {α : Type} (f : α → Float) (xs : List α) (x : α) :
    total ((xs ++ [x]).map f) = total (xs.map f) + f x := by
  unfold total
  rw [List.map_append, List.foldl_append]
  rfl

namespace Indicator

/-! ### Watching the closes -/

/-- All that is kept of the closes so far: the latest of them and two accumulators. -/
structure Watcher where
  previous : Float
  gain : Float
  loss : Float

namespace Watcher

/-- What is kept of the first close, before there is a change. -/
def first (close : Float) : Watcher := { previous := close, gain := -0.0, loss := -0.0 }

/-- An accumulator after the value at a place. It is a running sum up to the place `period`, where
the sum is divided, and an average from there on. -/
def accumulate (period place : Nat) (kept value : Float) : Float :=
  if place < period then kept + value
  else if place = period then (kept + value) / Float.ofNat period
  else (kept * Float.ofNat (period - 1) + value) / Float.ofNat period

/-- What is kept after the close at a place. The gain is the greater one of the change and zero, the
loss that of the opposite change and zero; a change that is NaN counts as zero for both. -/
def see (period place : Nat) (w : Watcher) (close : Float) : Watcher :=
  let change := close - w.previous
  { previous := close
    gain := accumulate period place w.gain (if 0.0 < change then change else 0.0)
    loss := accumulate period place w.loss (if 0.0 < -change then -change else 0.0) }

/-- What is reported at a place. -/
def report (period place : Nat) (w : Watcher) : Option Float :=
  if place < period then none
  else some (100.0 - 100.0 / (1.0 + w.gain / (if w.loss == 0.0 then 1e-4 else w.loss)))

/-- The reports at some closes, the first of which is at a given place. -/
def reportsFrom (period place : Nat) (w : Watcher) : List Float → List (Option Float)
  | [] => []
  | close :: rest =>
      let seen := w.see period place close
      seen.report period place :: reportsFrom period (place + 1) seen rest

/-- The reports at all closes. -/
def reports (period : Nat) : List Float → List (Option Float)
  | [] => []
  | close :: rest =>
      (first close).report period 0 :: reportsFrom period 1 (first close) rest

end Watcher

/-! ### The averages behind a place -/

namespace Rsi

/-- The averages after some changes, of which there are at least `period`. -/
def after (k : Rsi) (changes : List Float) : Averages :=
  (changes.drop k.period).foldl k.next (k.start changes)

/-- The index after some changes, if there are enough of them. -/
def indexAfter (k : Rsi) (changes : List Float) : Option Float :=
  if changes.length < k.period then none else some (index (k.after changes))

theorem getElem?_run (k : Rsi) (a : Averages) {changes : List Float} {j : Nat}
    (h : j ≤ changes.length) :
    (k.run a changes)[j]? = some ((changes.take j).foldl k.next a) := by
  induction changes generalizing a j with
  | nil =>
      rw [Nat.le_zero.mp h]
      rfl
  | cons change rest ih =>
      cases j with
      | zero => rfl
      | succ j => exact ih (k.next a change) (Nat.le_of_succ_le_succ h)

/-- The averages start from the first `period` changes, of which each accumulator is the mean. -/
theorem after_of_length_eq (k : Rsi) {changes : List Float} (h : changes.length = k.period) :
    k.after changes = k.start changes := by
  unfold after
  rw [List.drop_of_length_le (Nat.le_of_eq h)]
  rfl

/-- A later change moves them on. -/
theorem after_concat (k : Rsi) {changes : List Float} (h : k.period ≤ changes.length)
    (change : Float) : k.after (changes ++ [change]) = k.next (k.after changes) change := by
  have start : k.start (changes ++ [change]) = k.start changes := by
    rw [← k.start_take _ h, List.take_left]
  unfold after
  rw [start, List.drop_append_of_le_length h, List.foldl_append]
  rfl

/-- The averages over the first changes and what follows belong to any longer beginning alike. -/
theorem after_take (k : Rsi) (changes : List Float) {n : Nat} (h : k.period ≤ n) :
    k.after (changes.take n)
      = ((changes.drop k.period).take (n - k.period)).foldl k.next (k.start changes) := by
  unfold after
  rw [k.start_take changes h, List.drop_take]

/-- The index at a place is that after the changes up to there: the change at `i` leads from the
close at `i` to the one at `i + 1`. -/
theorem getElem?_values (k : Rsi) {closes : List Float} {i : Nat} (h : i < closes.length) :
    (k.values closes)[i]? = some (k.indexAfter ((Series.changes closes).take i)) := by
  have count : ((Series.changes closes).take i).length = i := by
    rw [List.length_take, Series.length_changes]
    omega
  unfold indexAfter
  rw [count]
  rcases Nat.lt_or_ge i k.period with early | late
  · rw [if_pos early]
    rcases Nat.lt_or_ge k.period closes.length with long | short
    · rw [k.values_of_long long, List.getElem?_append_left (by rwa [List.length_replicate]),
        List.getElem?_replicate_of_lt early]
    · rw [k.values_of_short short, List.getElem?_replicate_of_lt h]
  · have within : i - k.period ≤ ((Series.changes closes).drop k.period).length := by
      rw [List.length_drop, Series.length_changes]
      omega
    rw [if_neg (Nat.not_lt_of_le late), k.values_of_long (Nat.lt_of_le_of_lt late h),
      List.getElem?_append_right (by rwa [List.length_replicate]), List.length_replicate,
      List.getElem?_map, k.getElem?_run _ within, k.after_take _ late]
    rfl

end Rsi

/-! ### What the process keeps -/

/-- The accumulators stand for the changes so far: they are the sums of the gains and losses while
there are fewer than `period` of them, and the averages from then on. -/
structure Tracks (k : Rsi) (changes : List Float) (w : Watcher) : Prop where
  sums : changes.length < k.period →
    w.gain = Series.total (changes.map Rsi.gain) ∧ w.loss = Series.total (changes.map Rsi.loss)
  averages : k.period ≤ changes.length → Rsi.Averages.mk w.gain w.loss = k.after changes

theorem tracks_first (k : Rsi) (close : Float) : Tracks k [] (Watcher.first close) where
  sums _ := ⟨rfl, rfl⟩
  averages none := absurd k.period_pos (Nat.not_lt_of_le none)

/-- One more close keeps the accumulators right: within the first sums, where they become means, and
behind. -/
theorem Tracks.see {k : Rsi} {changes : List Float} {w : Watcher} (h : Tracks k changes w)
    (close : Float) :
    Tracks k (changes ++ [close - w.previous]) (w.see k.period (changes.length + 1) close) := by
  have count : (changes ++ [close - w.previous]).length = changes.length + 1 :=
    List.length_append
  constructor
  case sums =>
    intro few
    rw [count] at few
    rcases h.sums (Nat.lt_of_succ_lt few) with ⟨gain, loss⟩
    simp only [Watcher.see, Watcher.accumulate, if_pos few]
    rw [Series.total_map_concat, Series.total_map_concat, gain, loss]
    exact ⟨rfl, rfl⟩
  case averages =>
    intro enough
    rw [count] at enough
    have full : ¬ changes.length + 1 < k.period := Nat.not_lt_of_le enough
    rcases Nat.lt_or_ge changes.length k.period with last | behind
    · have now : changes.length + 1 = k.period := by omega
      have all : (changes ++ [close - w.previous]).take k.period
          = changes ++ [close - w.previous] :=
        List.take_of_length_le (Nat.le_of_eq (count.trans now))
      rcases h.sums last with ⟨gain, loss⟩
      simp only [Watcher.see, Watcher.accumulate, if_neg full, if_pos now]
      rw [k.after_of_length_eq (count.trans now), Rsi.start, all, Series.total_map_concat,
        Series.total_map_concat, gain, loss]
      rfl
    · have later : ¬ changes.length + 1 = k.period := by omega
      simp only [Watcher.see, Watcher.accumulate, if_neg full, if_neg later]
      rw [k.after_concat behind, ← h.averages behind]
      rfl

/-- The process reports the index after the changes so far. -/
theorem Tracks.report {k : Rsi} {changes : List Float} {w : Watcher} (h : Tracks k changes w) :
    w.report k.period changes.length = k.indexAfter changes := by
  unfold Watcher.report Rsi.indexAfter
  rcases Nat.lt_or_ge changes.length k.period with few | enough
  · rw [if_pos few, if_pos few]
  · rw [if_neg (Nat.not_lt_of_le enough), if_neg (Nat.not_lt_of_le enough), ← h.averages enough]
    rfl

/-- Over a whole run the process reports, at each close, the index after the changes up to there. By
induction on the closes that are still to be seen. -/
theorem getElem?_reportsFrom {k : Rsi} {changes : List Float} {w : Watcher}
    (h : Tracks k changes w) (rest : List Float) (j : Nat) :
    (Watcher.reportsFrom k.period (changes.length + 1) w rest)[j]?
      = rest[j]?.map fun _ =>
          k.indexAfter (changes ++ (Series.changes (w.previous :: rest)).take (j + 1)) := by
  induction rest generalizing changes w j with
  | nil => rfl
  | cons close rest ih =>
      have seen := h.see close
      have count : (changes ++ [close - w.previous]).length = changes.length + 1 :=
        List.length_append
      cases j with
      | zero =>
          have reported := seen.report
          rw [count] at reported
          exact congrArg some reported
      | succ j =>
          have later := ih seen j
          rw [count, List.append_assoc] at later
          exact later

/-- The index at every close is what the process reports there. -/
theorem values_eq_reports (k : Rsi) (closes : List Float) :
    k.values closes = Watcher.reports k.period closes := by
  cases closes with
  | nil => rfl
  | cons close rest =>
      apply List.ext_getElem?
      intro i
      have started := tracks_first k close
      cases i with
      | zero =>
          rw [k.getElem?_values (Nat.succ_pos _), List.take_zero]
          exact congrArg some started.report.symm
      | succ i =>
          have run := getElem?_reportsFrom started rest i
          rcases Nat.lt_or_ge i rest.length with inside | outside
          · rw [k.getElem?_values (Nat.succ_lt_succ inside)]
            rw [List.getElem?_eq_getElem inside] at run
            exact run.symm
          · rw [List.getElem?_eq_none outside] at run
            have ended : (k.values (close :: rest))[i + 1]? = none := by
              rw [List.getElem?_eq_none_iff, k.length_values]
              exact Nat.succ_le_succ outside
            rw [ended]
            exact run.symm

/-- The relative strength index is an online process, for any history and any period that leaves
room for one more place. The loop over buffers of gains and losses never breaks a check, and what it
stores, like the index itself, is what the process reports: nothing at the first `period` closes and
an index at all others. -/
theorem rsi_eq_online_process (k : Rsi) (room : k.period + 1 < UInt64.size) (closes : List Float) :
    Indexed.rsi k.period closes = .ok (Watcher.reports k.period closes) ∧
      k.values closes = Watcher.reports k.period closes ∧
      (Watcher.reports k.period closes).length = closes.length ∧
      Series.BeginsAt (Watcher.reports k.period closes) k.period := by
  rw [← values_eq_reports]
  exact ⟨Indexed.rsi_eq k closes room, rfl, k.length_values closes, k.beginsAt_values closes⟩

/-- A period of two, and a history with gains and losses behind the first average. -/
theorem rsi_eq_online_process_two :
    Indexed.rsi 2 [10, 11, 10, 12, 9] = .ok (Watcher.reports 2 [10, 11, 10, 12, 9]) :=
  (rsi_eq_online_process ⟨2, by decide⟩ (by decide) [10, 11, 10, 12, 9]).1

end Indicator

end PriceSignals
