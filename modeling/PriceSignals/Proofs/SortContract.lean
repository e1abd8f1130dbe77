/-
Module: PriceSignals.Proofs.SortContract
Purpose: What sorting by time promises. The same bars come back, the dated ones first and in the
  order of their instants, bars of one instant and bars without any in their old order; and there is
  only one history like that.
Main exports:
  Bar.isDated, Bar.SortedByTime, Bar.ascending_iff_pairwise, Bar.pairwise_dated_iff,
  Bar.inOrder_iff_pairwise, Bar.eq_of_filters_eq, Bar.StablySorted.unique,
  Bar.StablySorted.sortedByTime, Bar.SortedByTime.stablySorted, time_sort_meets_contract
-/
import PriceSignals.Proofs.SortedHistory

namespace PriceSignals

namespace Bar

/-- Whether a bar has an instant. -/
def isDated (b : Bar) : Bool := b.instant?.isSome

/-- What sorting a history by time promises of its result. -/
structure SortedByTime (bars sorted : List Bar) : Prop where
  /-- No bar is lost, made or altered. -/
  same : sorted.Perm bars
  /-- The dated bars come first. All others follow in their old order. -/
  dated_first : sorted = sorted.filter isDated ++ bars.filter fun b => !b.isDated
  /-- No instant is before one that stands in front of it. -/
  ascending : (sorted.filterMap instant?).Pairwise fun x y => y.before x = false
  /-- Bars of one instant keep their order, however their times are given. -/
  stable : ∀ t : Time.Instant,
    sorted.filter (fun b => decide (b.instant? = some t))
      = bars.filter fun b => decide (b.instant? = some t)

/-! ### The order of dated bars -/

/-- A scan of neighbours finds out whether instants are in order anywhere. -/
theorem ascending_iff_pairwise (ts : List Time.Instant) :
    ascending ts = true ↔ ts.Pairwise fun x y => y.before x = false := by
  have trans : IsTrans Time.Instant fun x y => y.before x = false :=
    ⟨fun _ _ _ => Time.Instant.not_before_trans⟩
  rw [← List.isChain_iff_pairwise]
  fun_induction ascending ts with
  | case1 x y rest ih => simp [ih]
  | case2 ts short =>
      cases ts with
      | nil => simp
      | cons x rest =>
          cases rest with
          | nil => simp
          | cons y rest => exact absurd rfl (short x y rest)

/-- Dated bars are ordered as their instants are. -/
theorem pairwise_dated_iff (bars : List Bar) :
    (bars.filterMap instant?).Pairwise (fun x y => y.before x = false)
      ↔ (bars.filter isDated).Pairwise fun a b => a.notAfter b = true := by
  rw [List.pairwise_filterMap, List.pairwise_filter]
  apply List.Pairwise.iff
  intro a b
  unfold isDated notAfter
  cases a.instant? with
  | none => simp
  | some x => cases b.instant? <;> simp

theorem inOrder_iff_pairwise (bars : List Bar) :
    inOrder bars = true ↔ (bars.filter isDated).Pairwise fun a b => a.notAfter b = true := by
  rw [inOrder, ascending_iff_pairwise, pairwise_dated_iff]

/-- Behind a bar without instant there are only such bars. -/
theorem dated_append_undated {bars : List Bar}
    (ordered : bars.Pairwise fun a b => a.notAfter b = true) :
    bars.filter isDated ++ bars.filter (fun b => !b.isDated) = bars := by
  induction bars with
  | nil => rfl
  | cons a bars ih =>
      obtain ⟨first, ordered⟩ := List.pairwise_cons.mp ordered
      by_cases dated : a.isDated = true
      · simp [dated, ih ordered]
      · have rest : ∀ b ∈ bars, b.isDated = false := by
          intro b member
          have after := first b member
          unfold isDated at dated ⊢
          unfold notAfter at after
          cases hb : b.instant? with
          | none => rfl
          | some y => simp_all
        have none_dated : bars.filter isDated = [] := by
          simpa using rest
        have all_undated : bars.filter (fun b => !b.isDated) = bars := by
          simpa using rest
        simp [dated, none_dated, all_undated]

/-! ### Uniqueness -/

theorem mem_iff_of_filters_eq {xs ys : List Bar}
    (filters : ∀ t : Option Time.Instant,
      xs.filter (fun b => decide (b.instant? = t)) = ys.filter fun b => decide (b.instant? = t))
    (b : Bar) : b ∈ xs ↔ b ∈ ys := by
  have alike := congrArg (b ∈ ·) (filters b.instant?)
  simpa using alike

/-- A history in order is known from the order among the bars of each instant, and among those
without any. Its first bar is the first one of its instant, and no other instant can come first. -/
theorem eq_of_filters_eq {xs ys : List Bar} (hx : xs.Pairwise fun a b => a.notAfter b = true)
    (hy : ys.Pairwise fun a b => a.notAfter b = true)
    (filters : ∀ t : Option Time.Instant,
      xs.filter (fun b => decide (b.instant? = t)) = ys.filter fun b => decide (b.instant? = t)) :
    xs = ys := by
  induction xs generalizing ys with
  | nil =>
      cases ys with
      | nil => rfl
      | cons b ys => cases (mem_iff_of_filters_eq filters b).mpr List.mem_cons_self
  | cons a xs ih =>
      cases ys with
      | nil => cases (mem_iff_of_filters_eq filters a).mp List.mem_cons_self
      | cons b ys =>
          have members := mem_iff_of_filters_eq filters
          obtain ⟨first_x, ordered_x⟩ := List.pairwise_cons.mp hx
          obtain ⟨first_y, ordered_y⟩ := List.pairwise_cons.mp hy
          have a_first : a.notAfter b = true := by
            rcases List.mem_cons.mp ((members b).mpr List.mem_cons_self) with rfl | later
            · exact notAfter_of_instant?_eq rfl
            · exact first_x b later
          have b_first : b.notAfter a = true := by
            rcases List.mem_cons.mp ((members a).mp List.mem_cons_self) with rfl | later
            · exact notAfter_of_instant?_eq rfl
            · exact first_y a later
          have tied := instant?_eq_of_notAfter a_first b_first
          have heads := filters a.instant?
          rw [List.filter_cons_of_pos (by simp), List.filter_cons_of_pos (by simp [tied])] at heads
          obtain ⟨rfl, -⟩ := List.cons.inj heads
          have tails (t : Option Time.Instant) :
              xs.filter (fun c => decide (c.instant? = t))
                = ys.filter fun c => decide (c.instant? = t) := by
            have whole := filters t
            rw [List.filter_cons, List.filter_cons] at whole
            split at whole
            · exact (List.cons.inj whole).2
            · exact whole
          rw [ih ordered_x ordered_y tails]

/-- A stable sort has one result. -/
theorem StablySorted.unique {bars sorted other : List Bar} (first : StablySorted bars sorted)
    (second : StablySorted bars other) : sorted = other :=
  eq_of_filters_eq first.ordered second.ordered fun t =>
    (first.stable t).trans (second.stable t).symm

/-! ### The contract -/

theorem not_isDated (b : Bar) : (!b.isDated) = decide (b.instant? = none) := by
  unfold isDated
  cases b.instant? <;> rfl

theorem StablySorted.sortedByTime {bars sorted : List Bar} (h : StablySorted bars sorted) :
    SortedByTime bars sorted where
  same := h.same
  dated_first := by
    have undated := h.stable none
    simp only [← not_isDated] at undated
    rw [← undated, dated_append_undated h.ordered]
  ascending := (pairwise_dated_iff sorted).mpr (h.ordered.filter _)
  stable t := h.stable (some t)

theorem SortedByTime.stablySorted {bars sorted : List Bar} (h : SortedByTime bars sorted) :
    StablySorted bars sorted where
  same := h.same
  ordered := by
    rw [h.dated_first, List.pairwise_append]
    refine ⟨(pairwise_dated_iff sorted).mp h.ascending, ?_, ?_⟩
    · refine List.pairwise_of_forall_mem_list fun a ha b hb => notAfter_of_instant?_eq ?_
      have left := (List.mem_filter.mp ha).2
      have right := (List.mem_filter.mp hb).2
      rw [not_isDated, decide_eq_true_eq] at left right
      rw [left, right]
    · intro a ha b hb
      have left := (List.mem_filter.mp ha).2
      have right := (List.mem_filter.mp hb).2
      obtain ⟨x, dated⟩ := Option.isSome_iff_exists.mp left
      rw [not_isDated, decide_eq_true_eq] at right
      rw [notAfter, dated, right]
  stable t := by
    cases t with
    | some t => exact h.stable t
    | none =>
        simp only [← not_isDated]
        have parts := congrArg (List.filter fun b => !b.isDated) h.dated_first
        rw [List.filter_append, List.filter_filter, List.filter_filter] at parts
        simpa using parts

end Bar

/-- Sorting by time meets its contract on every history, and the contract leaves it no choice: the
sorted history is the only one that is the same bars, with the dated ones first in ascending order,
bars of one instant in their old order, and the undated ones behind them in their old order. It
counts as being in order, and sorting it again changes nothing. -/
theorem time_sort_meets_contract (bars : List Bar) :
    Bar.SortedByTime bars (Bar.sort bars) ∧
      (∀ sorted, Bar.SortedByTime bars sorted → sorted = Bar.sort bars) ∧
      Bar.inOrder (Bar.sort bars) = true ∧ Bar.sort (Bar.sort bars) = Bar.sort bars := by
  have stably := Bar.stablySorted_sort bars
  refine ⟨stably.sortedByTime, fun sorted promised => ?_, ?_, ?_⟩
  · exact promised.stablySorted.unique stably
  · rw [Bar.inOrder_iff_pairwise]
    exact stably.ordered.filter _
  · exact Bar.sort_sort bars

end PriceSignals
