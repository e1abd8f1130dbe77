/-
Module: PriceSignals.Proofs.SortedHistory
Purpose: Sorting a history by time. The order of bars is a total preorder in which only bars of the
  same instant, or without any, are tied, so where ties are equal bars a sorted history is known
  from its bars alone.
Main exports:
  Time.Instant.before_iff, Bar.notAfter_trans, Bar.notAfter_total, Bar.pairwise_sort, Bar.sort_sort,
  Bar.instant?_eq_of_notAfter, Bar.StablySorted, Bar.stablySorted_sort, Bar.sort_eq_of_perm,
  Command.process_of_sort,
  sorted_history_independent_of_order
-/
import PriceSignals.Command
import Mathlib.Data.List.Nodup

namespace PriceSignals

/-! ### The order of instants -/

namespace Time.Instant

/-- Seconds come first, nanoseconds second. -/
theorem before_iff {a b : Instant} :
    a.before b = true ↔ a.secs < b.secs ∨ (a.secs = b.secs ∧ a.nanos < b.nanos) := by
  simp [before]

/-- What is not after something that is not after a third is not after the third. -/
theorem not_before_trans {a b c : Instant} (hab : b.before a = false) (hbc : c.before b = false) :
    c.before a = false := by
  rw [Bool.eq_false_iff, ne_eq, before_iff] at *
  omega

/-- Of two instants, the later one is not before the earlier one. -/
theorem not_before_total (a b : Instant) : a.before b = false ∨ b.before a = false := by
  simp only [Bool.eq_false_iff, ne_eq, before_iff]
  omega

/-- Two instants neither of which is before the other are the same. -/
theorem eq_of_not_before {a b : Instant} (hab : b.before a = false) (hba : a.before b = false) :
    a = b := by
  rw [Bool.eq_false_iff, ne_eq, before_iff] at hab hba
  obtain ⟨asecs, ananos⟩ := a
  obtain ⟨bsecs, bnanos⟩ := b
  have secs : asecs = bsecs := by
    dsimp only at hab hba
    omega
  have nanos : ananos = bnanos := by
    dsimp only at hab hba
    omega
  subst secs nanos
  rfl

end Time.Instant

/-! ### The order of bars -/

namespace Bar

theorem notAfter_trans (a b c : Bar) (hab : a.notAfter b = true) (hbc : b.notAfter c = true) :
    a.notAfter c = true := by
  unfold notAfter at *
  cases hx : a.instant? with
  | none =>
      cases hy : b.instant? with
      | none => simpa [hx, hy] using hbc
      | some y => simp [hx, hy] at hab
  | some x =>
      cases hz : c.instant? with
      | none => rfl
      | some z =>
          cases hy : b.instant? with
          | none => simp [hy, hz] at hbc
          | some y =>
              simp only [hx, hy, hz, Bool.not_eq_true'] at hab hbc ⊢
              exact Time.Instant.not_before_trans hab hbc

theorem notAfter_total (a b : Bar) : (a.notAfter b || b.notAfter a) = true := by
  unfold notAfter
  cases a.instant? with
  | none => cases b.instant? <;> rfl
  | some x =>
      cases b.instant? with
      | none => rfl
      | some y =>
          rcases Time.Instant.not_before_total x y with h | h
          · simp [h]
          · simp [h]

/-- Bars that are not after each other have the same instant, or both have none. -/
theorem instant?_eq_of_notAfter {a b : Bar} (hab : a.notAfter b = true)
    (hba : b.notAfter a = true) : a.instant? = b.instant? := by
  unfold notAfter at hab hba
  cases hx : a.instant? with
  | none =>
      cases hy : b.instant? with
      | none => rfl
      | some y => simp [hx, hy] at hab
  | some x =>
      cases hy : b.instant? with
      | none => simp [hx, hy] at hba
      | some y =>
          simp only [hx, hy, Bool.not_eq_true'] at hab hba
          exact congrArg some (Time.Instant.eq_of_not_before hab hba)

/-- In a sorted history no bar stands behind one that it has to precede. -/
theorem pairwise_sort (bars : List Bar) : (sort bars).Pairwise fun a b => a.notAfter b = true :=
  List.pairwise_mergeSort notAfter_trans notAfter_total bars

/-- A sorted history is not changed by sorting it again. -/
theorem sort_sort (bars : List Bar) : sort (sort bars) = sort bars :=
  List.mergeSort_of_pairwise (pairwise_sort bars)

/-- Bars of the same instant, or without any, are tied. -/
theorem notAfter_of_instant?_eq {a b : Bar} (tied : a.instant? = b.instant?) :
    a.notAfter b = true := by
  unfold notAfter
  rw [tied]
  cases b.instant? with
  | none => rfl
  | some y =>
      have irreflexive : y.before y = false := by
        rcases Time.Instant.not_before_total y y with h | h
        · exact h
        · exact h
      simp [irreflexive]

/-- Sorting keeps the order among the bars of an instant, and among those without any. -/
theorem filter_sort (bars : List Bar) (t : Option Time.Instant) :
    (sort bars).filter (fun b => decide (b.instant? = t))
      = bars.filter fun b => decide (b.instant? = t) := by
  let tied (b : Bar) : Bool := decide (b.instant? = t)
  show (sort bars).filter tied = bars.filter tied
  have in_order : (bars.filter tied).Pairwise fun a b => a.notAfter b = true := by
    refine List.pairwise_of_forall_mem_list fun a ha b hb => notAfter_of_instant?_eq ?_
    have left : a.instant? = t := of_decide_eq_true (List.mem_filter.mp ha).2
    have right : b.instant? = t := of_decide_eq_true (List.mem_filter.mp hb).2
    rw [left, right]
  have kept : (bars.filter tied).Sublist (sort bars) :=
    List.sublist_mergeSort notAfter_trans notAfter_total in_order List.filter_sublist
  have kept := kept.filter tied
  rw [List.filter_filter] at kept
  simp only [Bool.and_self] at kept
  exact (kept.eq_of_length ((sort_perm bars).filter tied).length_eq.symm).symm

/-- A history in the order in which a stable sort leaves it: the same bars, none behind one that it
has to precede, and bars that are tied in their old order. -/
structure StablySorted (bars sorted : List Bar) : Prop where
  same : sorted.Perm bars
  ordered : sorted.Pairwise fun a b => a.notAfter b = true
  stable : ∀ t : Option Time.Instant,
    sorted.filter (fun b => decide (b.instant? = t))
      = bars.filter fun b => decide (b.instant? = t)

theorem stablySorted_sort (bars : List Bar) : StablySorted bars (sort bars) where
  same := sort_perm bars
  ordered := pairwise_sort bars
  stable := filter_sort bars

/-- Histories of the same bars are sorted alike where tied bars are equal. Both sorted histories
are in order and hold the same bars, and the order tells different bars apart. -/
theorem sort_eq_of_perm {xs ys : List Bar} (same : xs.Perm ys)
    (distinct : ∀ a ∈ xs, ∀ b ∈ xs, a.instant? = b.instant? → a = b) : sort xs = sort ys := by
  have sorted : (sort xs).Perm (sort ys) :=
    (sort_perm xs).trans (same.trans (sort_perm ys).symm)
  refine List.Perm.eq_of_pairwise ?_ (pairwise_sort xs) (pairwise_sort ys) sorted
  intro a b ha hb hab hba
  have a_in : a ∈ xs := (sort_perm xs).subset ha
  have b_in : b ∈ xs := same.symm.subset ((sort_perm ys).subset hb)
  exact distinct a a_in b b_in (instant?_eq_of_notAfter hab hba)

end Bar

/-! ### Commands that sort -/

/-- What a command that sorts makes of a history depends on the sorted history alone. -/
theorem Command.process_of_sort {cmd : Command} (sorts : cmd.sort = true) (settings : Settings)
    (c : Composer) {xs ys : List Bar} (same : Bar.sort xs = Bar.sort ys) :
    cmd.process settings c xs = cmd.process settings c ys := by
  have length : xs.length = ys.length := by
    rw [← (Bar.sort_perm xs).length_eq, ← (Bar.sort_perm ys).length_eq, same]
  have empty : xs.isEmpty = ys.isEmpty := by
    rw [Bool.eq_iff_iff, List.isEmpty_iff_length_eq_zero, List.isEmpty_iff_length_eq_zero, length]
  simp only [process, loadEvents, annotateEvents, sorts, same, length, empty, Bool.true_or,
    if_true]

/-- A sorted history does not depend on the order in which its bars came. For histories of the same
bars, in which bars of the same instant or without any are equal, sorting gives the same list, so
every composer gives the same records, all rules the same verdict, and a command that sorts prints
the same and tells the same events. -/
theorem sorted_history_independent_of_order {xs ys : List Bar} (same : xs.Perm ys)
    (distinct : ∀ a ∈ xs, ∀ b ∈ xs, a.instant? = b.instant? → a = b) :
    Bar.sort xs = Bar.sort ys ∧
      ∀ c : Composer,
        c.annotate (Bar.sort xs) = c.annotate (Bar.sort ys) ∧
        (∀ rules : List Rule,
          Verdict.of rules (c.annotate (Bar.sort xs))
            = Verdict.of rules (c.annotate (Bar.sort ys))) ∧
        ∀ (cmd : Command) (settings : Settings), cmd.sort = true →
          cmd.process settings c xs = cmd.process settings c ys := by
  have sorted : Bar.sort xs = Bar.sort ys := Bar.sort_eq_of_perm same distinct
  refine ⟨sorted, fun c => ⟨?_, ?_, ?_⟩⟩
  · rw [sorted]
  · intro rules
    rw [sorted]
  · intro cmd settings sorts
    exact Command.process_of_sort sorts settings c sorted

/-- Two histories of the same four bars, whose times are a text, whole seconds, no time at all and
seconds with a fraction. -/
theorem sorted_history_independent_of_order_mixed :
    let bar (time : BarTime) (close : Float) : Bar := ⟨time, close, close, close, close, none⟩
    let text := bar (.text "2024-01-03") 1
    let whole := bar (.unix 1704153600) 2
    let undated := bar (.text "unknown") 3
    let fraction := bar (.fractional 1704153600.5) 4
    Bar.sort [text, whole, undated, fraction] = Bar.sort [undated, fraction, text, whole] := by
  intro bar text whole undated fraction
  have nodup : ([text, whole, undated, fraction].map Bar.instant?).Nodup := by decide +kernel
  have same : [text, whole, undated, fraction].Perm [undated, fraction, text, whole] :=
    @List.perm_append_comm Bar [text, whole] [undated, fraction]
  exact (sorted_history_independent_of_order same fun a ha b hb =>
    List.inj_on_of_nodup_map nodup ha hb).1

end PriceSignals
