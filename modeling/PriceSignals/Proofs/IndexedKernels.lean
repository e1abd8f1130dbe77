/-
Module: PriceSignals.Proofs.IndexedKernels
Purpose: The indicators as loops that store their values in buffers, place by place, with every
  place checked. For histories whose length is a machine word no check is ever broken, and the
  buffers hold what the indicators are defined to be.
Main exports:
  Indexed.sma, Indexed.bands, Indexed.rsi, Indexed.ema, Indexed.convergence, Indexed.sma_eq,
  Indexed.bands_eq, Indexed.rsi_eq, Indexed.rsi_overflow, Indexed.ema_eq, Indexed.convergence_eq
-/
import PriceSignals.Indicator.Bollinger
import PriceSignals.Indicator.Checked
import PriceSignals.Indicator.Macd
import PriceSignals.Indicator.Rsi
import PriceSignals.Proofs.Presence

namespace PriceSignals.Indicator.Indexed

open Checked

/-! ### The loops -/

/-- The simple average. The mean of each full window is stored where the window ends. -/
def sma (period : Nat) (closes : List Float) : Checked (List (Option Float)) := do
  let k ← demand (Sma.make period)
  let result := List.replicate closes.length none
  if closes.length < k.period then return result
  let full ← windows k.period closes
  full.zipIdx.foldlM (fun result (window, offset) => do
    let place ← sub (← add offset k.period) 1
    put result place (some (Series.total window / Float.ofNat k.period))) result

/-- The bands at a place. Before a window is full, they are those of all closes so far. -/
def bandsAt (k : Bollinger) (closes : List Float) (averages : List (Option Float)) (i : Nat) :
    Checked (Option Bands) := do
  let next ← add i 1
  if next < k.period then do
    let start ← slice closes 0 next
    if start.length < 2 then return none
    else return some (k.around start (Series.mean start))
  else do
    let window ← slice closes (← sub next k.period) next
    return (← get averages i).map (k.around window)

/-- The bands around averages that have been computed before. -/
def bands (k : Bollinger) (closes : List Float) (averages : List (Option Float)) :
    Checked (List (Option Bands)) := do
  agree closes averages
  (List.range' 0 closes.length).foldlM (fun result i => do
    put result i (← bandsAt k closes averages i)) (List.replicate closes.length none)

/-- The change within a window of two closes. -/
def change (window : List Float) : Checked Float := do
  return (← get window 1) - (← get window 0)

/-- One round of the loop of the relative strength index: the averages are smoothed with the latest
gain and loss, and the index is stored. -/
def rsiStep (k : Rsi) (gains losses : List Float) (state : Rsi.Averages × List (Option Float))
    (i : Nat) : Checked (Rsi.Averages × List (Option Float)) := do
  let latest ← sub i 1
  let averages : Rsi.Averages :=
    { gain := k.smooth state.1.gain (← get gains latest)
      loss := k.smooth state.1.loss (← get losses latest) }
  return (averages, ← put state.2 i (some (Rsi.index averages)))

/-- The relative strength index. The first averages are plain means, all others are smoothed. -/
def rsi (period : Nat) (closes : List Float) : Checked (List (Option Float)) := do
  let k ← demand (Rsi.make period)
  let result := List.replicate closes.length none
  let first ← add k.period 1
  if closes.length < first then return result
  let changes ← (← windows 2 closes).mapM change
  let gains := changes.map Rsi.gain
  let losses := changes.map Rsi.loss
  let averages : Rsi.Averages :=
    { gain := Series.total (← slice gains 0 k.period) / Float.ofNat k.period
      loss := Series.total (← slice losses 0 k.period) / Float.ofNat k.period }
  let result ← put result k.period (some (Rsi.index averages))
  let _ ← sub k.period 1
  let filled ← (List.range' first (closes.length - first)).foldlM (rsiStep k gains losses)
    (averages, result)
  return filled.2

/-- The exponential average, which needs no places. -/
def ema (period : Nat) (closes : List Float) : Checked (List Float) := do
  let k ← demand (Ema.make period)
  return k.series closes

/-- The convergence of two averages. -/
def convergence (k : Macd) (fast slow : List Float) : Checked (List (Option Convergence)) := do
  agree fast slow
  let line := fast.zipWith (· - ·) slow
  let signal ← ema k.signal line
  return line.zipWith (fun l s => some { line := l, signal := s, histogram := l - s }) signal

/-! ### Parameters -/

theorem demand_sma (k : Sma) : demand (Sma.make k.period) = .ok k := by
  rw [Sma.make, dif_pos k.period_pos]
  rfl

theorem demand_rsi (k : Rsi) : demand (Rsi.make k.period) = .ok k := by
  rw [Rsi.make, dif_pos k.period_pos]
  rfl

theorem demand_ema (k : Ema) : demand (Ema.make k.period) = .ok k := by
  rw [Ema.make, dif_pos k.period_pos]
  rfl

/-! ### The averages -/

theorem ema_eq (k : Ema) (closes : List Float) : ema k.period closes = .ok (k.series closes) := by
  rw [ema, demand_ema]
  rfl

/-- The convergence is that of the two averages where these have one length. -/
theorem convergence_eq (k : Macd) {fast slow : List Float} (h : fast.length = slow.length) :
    convergence k fast slow = .ok (k.valuesFrom fast slow) := by
  have signal : ema k.signal (fast.zipWith (· - ·) slow) = .ok _ :=
    ema_eq ⟨k.signal, k.signal_pos⟩ (fast.zipWith (· - ·) slow)
  rw [convergence, agree_eq_ok h, ok_bind]
  dsimp only
  rw [signal]
  rfl

/-- The latest values up to a place are the stretch that ends there. -/
theorem latest_upto (size : Nat) {closes : List Float} {i : Nat} (h : i < closes.length) :
    Series.latest size (closes.take (i + 1)).reverse
      = (closes.take (i + 1)).drop (i + 1 - size) := by
  have length : (closes.take (i + 1)).length = i + 1 := List.length_take_of_le h
  rw [Series.latest, List.take_reverse, List.reverse_reverse, length]

/-- The simple average at a place: the mean of the stretch that ends there, if that is full. -/
theorem getElem?_sma (k : Sma) {closes : List Float} {i : Nat} (h : i < closes.length) :
    (k.values closes)[i]? = some (if i + 1 < k.period then none
      else some (Series.total ((closes.take (i + 1)).drop (i + 1 - k.period))
        / Float.ofNat k.period)) := by
  have length : ((closes.take (i + 1)).drop (i + 1 - k.period)).length = min (i + 1) k.period := by
    rw [List.length_drop, List.length_take_of_le h]
    omega
  rw [Sma.values, Series.getElem?_trailing, List.getElem?_eq_getElem h, List.append_nil,
    Option.map_some, Sma.latest?, latest_upto _ h, length]
  by_cases short : i + 1 < k.period
  · rw [if_pos (by omega), if_pos short]
  · rw [if_neg (by omega), if_neg short]

/-- A history shorter than the period has no simple average. -/
theorem sma_of_short (k : Sma) {closes : List Float} (short : closes.length < k.period) :
    k.values closes = List.replicate closes.length none := by
  apply List.ext_getElem?
  intro i
  by_cases inside : i < closes.length
  · rw [getElem?_sma k inside, if_pos (by omega), List.getElem?_replicate_of_lt inside]
  · have outside : (k.values closes).length ≤ i := by
      rw [k.causal_values.length_eq]
      omega
    rw [List.getElem?_eq_none outside, List.getElem?_eq_none (by simpa using inside)]

/-- In a longer one, the means of the full windows stand behind `period - 1` empty places. -/
theorem sma_of_long (k : Sma) {closes : List Float} (long : k.period ≤ closes.length) :
    k.values closes = List.replicate (k.period - 1) none
      ++ (List.range' 0 (closes.length + 1 - k.period)).map fun first =>
        some (Series.total ((closes.drop first).take k.period) / Float.ofNat k.period) := by
  have positive := k.period_pos
  apply List.ext_getElem?
  intro i
  by_cases inside : i < closes.length
  · rw [getElem?_sma k inside]
    by_cases early : i + 1 < k.period
    · rw [if_pos early, List.getElem?_append_left (by simp; omega),
        List.getElem?_replicate_of_lt (by omega)]
    · have window : (closes.take (i + 1)).drop (i + 1 - k.period)
          = (closes.drop (i + 1 - k.period)).take k.period := by
        rw [List.drop_take]
        congr 1
        omega
      have place : i - (k.period - 1) = i + 1 - k.period := by omega
      rw [if_neg early, window, List.getElem?_append_right (by simp; omega), List.length_replicate,
        List.getElem?_map, List.getElem?_range' (by omega), place]
      simp
  · have outside : (k.values closes).length ≤ i := by
      rw [k.causal_values.length_eq]
      omega
    rw [List.getElem?_eq_none outside, List.getElem?_eq_none (by simp; omega)]

/-- The windows with their places. -/
theorem zipIdx_map_range {α : Type} (f : Nat → α) (n : Nat) :
    ((List.range n).map f).zipIdx = (List.range' 0 n).map fun i => (f i, i) := by
  apply List.ext_getElem
  · simp
  · intro i _ _
    simp

/-- The loop of the simple average gives what the average is defined to be. -/
theorem sma_eq (k : Sma) {closes : List Float} (fits : closes.length < UInt64.size) :
    sma k.period closes = .ok (k.values closes) := by
  have positive := k.period_pos
  rw [sma, demand_sma, ok_bind]
  dsimp only
  by_cases short : closes.length < k.period
  · rw [if_pos short, sma_of_short k short]
    rfl
  · have long : k.period ≤ closes.length := Nat.le_of_not_lt short
    have blank : List.replicate closes.length (none : Option Float)
        = List.replicate (k.period - 1) none
          ++ List.replicate (closes.length + 1 - k.period) none := by
      rw [List.replicate_append_replicate]
      congr 1
      omega
    rw [if_neg short, windows_eq_ok positive, ok_bind, zipIdx_map_range, List.foldlM_map, blank,
      sma_of_long k long]
    refine foldlM_fill _ _ _ fun i _ high before rest length => ?_
    rw [List.length_replicate] at length
    rw [add_eq_ok (by omega), ok_bind, sub_eq_ok (by omega), ok_bind]
    exact put_eq_ok before none _ rest (by omega)

/-! ### The bands -/

/-- The bands at a place, from the closes up to it and the average there. -/
theorem getElem?_bands (k : Bollinger) {closes : List Float} {averages : List (Option Float)}
    {i : Nat} {average : Option Float} (h : i < closes.length) (found : averages[i]? = some average) :
    (k.valuesFrom closes averages)[i]?
      = some (k.latest? (closes.take (i + 1)).reverse average) := by
  rw [Bollinger.valuesFrom, List.getElem?_zipWith, Series.getElem?_trailing, found,
    List.getElem?_eq_getElem h, List.append_nil]
  rfl

/-- No check is broken at a place of the history. -/
theorem bandsAt_eq (k : Bollinger) {closes : List Float} {averages : List (Option Float)} {i : Nat}
    {average : Option Float} (fits : closes.length < UInt64.size) (h : i < closes.length)
    (found : averages[i]? = some average) :
    bandsAt k closes averages i = .ok (k.latest? (closes.take (i + 1)).reverse average) := by
  have whole : (closes.take (i + 1)).length = i + 1 := List.length_take_of_le h
  have window := latest_upto k.period h
  rw [bandsAt, add_eq_ok (by omega), ok_bind, Bollinger.latest?, window, List.length_drop, whole]
  by_cases early : i + 1 < k.period
  · have start : i + 1 - k.period = 0 := by omega
    rw [if_pos early, if_pos (by omega), slice_eq_ok (Nat.zero_le _) h, ok_bind, start,
      List.drop_zero, Nat.sub_zero, whole]
    by_cases single : i + 1 < 2
    · rw [if_pos single, if_pos single]
      rfl
    · rw [if_neg single, if_neg single]
      rfl
  · rw [if_neg early, if_neg (by omega), sub_eq_ok (by omega), ok_bind,
      slice_eq_ok (by omega) h, ok_bind, get_eq_ok found]
    rfl

/-- The loop of the bands gives what the bands are defined to be. -/
theorem bands_eq (k : Bollinger) {closes : List Float} {averages : List (Option Float)}
    (fits : closes.length < UInt64.size) (same : closes.length = averages.length) :
    bands k closes averages = .ok (k.valuesFrom closes averages) := by
  have values : k.valuesFrom closes averages = (List.range' 0 closes.length).map fun i =>
      k.latest? (closes.take (i + 1)).reverse averages[i]?.join := by
    apply List.ext_getElem?
    intro i
    by_cases inside : i < closes.length
    · have found : averages[i]? = some averages[i] := List.getElem?_eq_getElem (same ▸ inside)
      rw [getElem?_bands k inside found, List.getElem?_map, List.getElem?_range' inside]
      simp [found]
    · rw [List.getElem?_eq_none (by simp [Bollinger.valuesFrom, Series.length_trailing]; omega),
        List.getElem?_eq_none (by simp; omega)]
  rw [bands, agree_eq_ok same, ok_bind, values]
  refine foldlM_fill closes.length 0 [] fun i _ high before rest length => ?_
  have inside : i < closes.length := by omega
  have found : averages[i]? = some averages[i] := List.getElem?_eq_getElem (same ▸ inside)
  rw [bandsAt_eq k fits inside found, ok_bind, found, Option.join_some]
  exact put_eq_ok before none _ rest (by simpa using length.symm)

/-! ### The relative strength index -/

/-- The changes are the differences within the windows of two closes. -/
theorem mapM_change (closes : List Float) :
    ((List.range (closes.length + 1 - 2)).map fun first => (closes.drop first).take 2).mapM change
      = .ok (Series.changes closes) := by
  induction closes with
  | nil => rfl
  | cons x closes ih =>
      cases closes with
      | nil => rfl
      | cons y rest =>
          have first : change [x, y] = .ok (y - x) := rfl
          have count : (x :: y :: rest).length + 1 - 2 = (y :: rest).length + 1 - 2 + 1 := rfl
          rw [count, List.range_succ_eq_map, List.map_cons, List.map_map, List.mapM_cons]
          change (do
            let difference ← change [x, y]
            let differences ← ((List.range ((y :: rest).length + 1 - 2)).map fun first =>
              ((y :: rest).drop first).take 2).mapM change
            pure (difference :: differences)) = _
          rw [first, ok_bind, ih]
          rfl

/-- The loop of the index follows the smoothed averages through the changes that are left. The
index of the averages so far stands at place `i`, and the change at `i` belongs to the close at
`i + 1`, the first place that is not yet written. -/
theorem foldlM_rsiStep (k : Rsi) {changes left : List Float} {i : Nat} (a : Rsi.Averages)
    {written : List (Option Float)} (h : changes.drop i = left) (places : i = written.length) :
    ∃ b, (List.range' (i + 1) left.length).foldlM
        (rsiStep k (changes.map Rsi.gain) (changes.map Rsi.loss))
        (a, written ++ some (Rsi.index a) :: List.replicate left.length none)
      = .ok (b, written ++ (k.run a left).map fun a => some (Rsi.index a)) := by
  induction left generalizing i a written with
  | nil => exact ⟨a, rfl⟩
  | cons latest left ih =>
      have here : changes[i]? = some latest := by
        rw [← List.head?_drop, h]
        rfl
      have further : changes.drop (i + 1) = left := by
        rw [← List.drop_drop, h]
        rfl
      have gain : (changes.map Rsi.gain)[i]? = some (Rsi.gain latest) := by
        rw [List.getElem?_map, here]
        rfl
      have loss : (changes.map Rsi.loss)[i]? = some (Rsi.loss latest) := by
        rw [List.getElem?_map, here]
        rfl
      have next : i + 1 = (written ++ [some (Rsi.index a)]).length := by
        rw [List.length_append, ← places, List.length_singleton]
      have stored := put_eq_ok (written ++ [some (Rsi.index a)]) none
        (some (Rsi.index (k.next a latest))) (List.replicate left.length none) next
      have round : rsiStep k (changes.map Rsi.gain) (changes.map Rsi.loss)
          (a, (written ++ [some (Rsi.index a)]) ++ none :: List.replicate left.length none) (i + 1)
          = .ok (k.next a latest, (written ++ [some (Rsi.index a)])
            ++ some (Rsi.index (k.next a latest)) :: List.replicate left.length none) := by
        rw [rsiStep, sub_eq_ok (by omega), ok_bind, Nat.add_sub_cancel, get_eq_ok gain, ok_bind,
          get_eq_ok loss, ok_bind]
        change (do
          let filled ← put ((written ++ [some (Rsi.index a)])
            ++ none :: List.replicate left.length none) (i + 1)
            (some (Rsi.index (k.next a latest)))
          pure (k.next a latest, filled)) = _
        rw [stored]
        rfl
      obtain ⟨b, loop⟩ := ih (k.next a latest) further next
      refine ⟨b, ?_⟩
      rw [List.append_assoc, List.singleton_append] at round
      rw [List.length_cons, List.range'_succ, List.foldlM_cons, List.replicate_succ, round, ok_bind,
        loop, List.append_assoc]
      rfl

/-- The loop of the index gives what the index is defined to be. -/
theorem rsi_eq (k : Rsi) (closes : List Float) (room : k.period + 1 < UInt64.size) :
    rsi k.period closes = .ok (k.values closes) := by
  have positive := k.period_pos
  rw [rsi, demand_rsi, ok_bind]
  dsimp only
  rw [add_eq_ok room, ok_bind, Rsi.values]
  by_cases short : closes.length < k.period + 1
  · rw [if_pos short, if_pos (by omega), List.map_const']
    rfl
  · have long : k.period + 1 ≤ closes.length := Nat.le_of_not_lt short
    rw [if_neg short, if_neg (by omega), windows_eq_ok (by omega), ok_bind, mapM_change, ok_bind]
    dsimp only
    have left : ((Series.changes closes).drop k.period).length = closes.length - (k.period + 1) := by
      rw [List.length_drop, Series.length_changes]
      omega
    have blank : List.replicate closes.length (none : Option Float)
        = List.replicate k.period none
          ++ none :: List.replicate (closes.length - (k.period + 1)) none := by
      rw [← List.replicate_succ, List.replicate_append_replicate]
      congr 1
      omega
    have first (f : Float → Float) : slice ((Series.changes closes).map f) 0 k.period
        = .ok (((Series.changes closes).take k.period).map f) := by
      rw [slice_eq_ok (Nat.zero_le _) (by rw [List.length_map, Series.length_changes]; omega),
        List.drop_zero, List.map_take]
    have stored := put_eq_ok (List.replicate k.period none) none
      (some (Rsi.index (k.start (Series.changes closes))))
      (List.replicate (closes.length - (k.period + 1)) none) List.length_replicate.symm
    obtain ⟨b, loop⟩ := foldlM_rsiStep k (k.start (Series.changes closes)) rfl
      (@List.length_replicate (Option Float) k.period none).symm
    rw [left] at loop
    rw [first, ok_bind, first, ok_bind, blank]
    change (do
      let result ← put (List.replicate k.period none
          ++ none :: List.replicate (closes.length - (k.period + 1)) none) k.period
        (some (Rsi.index (k.start (Series.changes closes))))
      let _ ← sub k.period 1
      let filled ← (List.range' (k.period + 1) (closes.length - (k.period + 1))).foldlM
        (rsiStep k ((Series.changes closes).map Rsi.gain) ((Series.changes closes).map Rsi.loss))
        (k.start (Series.changes closes), result)
      pure filled.2) = _
    rw [stored, ok_bind, sub_eq_ok positive, ok_bind, loop]
    rfl

/-- A period that leaves no room for one more place is refused by the sum of places. -/
theorem rsi_overflow (k : Rsi) (closes : List Float) (full : UInt64.size ≤ k.period + 1) :
    rsi k.period closes = .error .overflow := by
  rw [rsi, demand_rsi, ok_bind]
  dsimp only
  rw [add, if_neg (Nat.not_lt_of_le full)]
  rfl

end PriceSignals.Indicator.Indexed
