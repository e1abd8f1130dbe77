/-
Module: PriceSignals.Proofs.OrderCheck
Purpose: The check of the order and the sort agree. A history passes the check exactly where sorting
  leaves its dated bars as they are, so a run that is not told to sort and does not warn does what
  it would do if it sorted.
Main exports:
  Bar.StablySorted.dated, Bar.inOrder_iff_filter_sort, Bar.inOrder_iff_sort, Command.sorting,
  Command.process_sorting, Command.run_sorting, order_check_agrees_with_sort
-/
import PriceSignals.Proofs.JsonFixedPoint
import PriceSignals.Proofs.SortContract

namespace PriceSignals

namespace Bar

/-! ### Histories -/

/-- A stable sort of a history sorts its dated bars stably. -/
theorem StablySorted.dated {bars sorted : List Bar} (h : StablySorted bars sorted) :
    StablySorted (bars.filter isDated) (sorted.filter isDated) where
  same := h.same.filter _
  ordered := h.ordered.filter _
  stable t := by
    rw [List.filter_comm, h.stable t, List.filter_comm]

/-- A history that is in order is a stable sort of itself. -/
theorem stablySorted_self {bars : List Bar}
    (ordered : bars.Pairwise fun a b => a.notAfter b = true) : StablySorted bars bars where
  same := List.Perm.refl bars
  ordered := ordered
  stable _ := rfl

/-- The check looks at neighbours among the dated bars, and sorting puts all of them in order. Where
the check succeeds, the dated bars are in order too, and there is only one stable order. -/
theorem inOrder_iff_filter_sort (bars : List Bar) :
    inOrder bars = true ↔ (sort bars).filter isDated = bars.filter isDated := by
  have sorted := (stablySorted_sort bars).dated
  rw [inOrder_iff_pairwise]
  constructor
  · intro ordered
    exact sorted.unique (stablySorted_self ordered)
  · intro kept
    rw [← kept]
    exact sorted.ordered

/-- A history all of whose bars are dated is in order exactly where sorting leaves it as it is. -/
theorem inOrder_iff_sort {bars : List Bar} (dated : ∀ b ∈ bars, b.isDated = true) :
    inOrder bars = true ↔ sort bars = bars := by
  have dated_sorted : ∀ b ∈ sort bars, b.isDated = true := fun b member =>
    dated b ((sort_perm bars).mem_iff.mp member)
  rw [inOrder_iff_filter_sort, List.filter_eq_self.mpr dated, List.filter_eq_self.mpr dated_sorted]

end Bar

/-! ### Runs -/

namespace Command

/-- The command that sorts and else does the same. -/
def sorting (c : Command) : Command := { c with sort := true }

variable {openFile : List Char → Opened} {c : Command}

/-- Sorting makes no difference to bars that are in order and are left as they are. -/
theorem process_sorting {bars : List Bar} (inOrder : Bar.inOrder bars = true)
    (kept : Bar.sort bars = bars) (s : Settings) (composer : Composer) :
    c.sorting.process s composer bars = c.process s composer bars := by
  have events : c.sorting.loadEvents composer.warmup bars = c.loadEvents composer.warmup bars := by
    unfold loadEvents
    rw [inOrder, Bool.or_true, Bool.or_true]
    rfl
  have ordered (d : Command) : (if d.sort then Bar.sort bars else bars) = bars := by
    rw [kept, ite_self]
  unfold process
  rw [events, ordered, ordered]
  rfl

/-- A command that sorts runs as the other one does where it makes the same of loaded bars. Up to
there the two do not differ. -/
theorem run_sorting
    (same : ∀ s composer bars, c.settings openFile = .ok s →
      Composer.make s.indicators = .ok composer →
      loadHistory c.input (openFile c.input) = .ok bars →
      c.sorting.process s composer bars = c.process s composer bars) :
    c.sorting.run openFile = c.run openFile := by
  have settings : c.sorting.settings openFile = c.settings openFile := rfl
  have input : c.sorting.input = c.input := rfl
  unfold run
  rw [settings, input]
  cases given : c.settings openFile with
  | error abort => rfl
  | ok s =>
      dsimp only [bind, Except.bind]
      cases made : Composer.make s.indicators with
      | error fault => rfl
      | ok composer =>
          cases loaded : loadHistory c.input (openFile c.input) with
          | error fault => rfl
          | ok bars =>
              dsimp only [Except.mapError]
              rw [same s composer bars given made loaded]

/-- A run that has loaded its bars and does not warn of their order had no reason to. -/
theorem inOrder_of_not_warns {s : Settings} {composer : Composer} {bars : List Bar}
    (unsorted : c.sort = false) (given : c.settings openFile = .ok s)
    (made : Composer.make s.indicators = .ok composer)
    (loaded : loadHistory c.input (openFile c.input) = .ok bars)
    (silent : ¬ (c.run openFile).Warns unordered) : Bar.inOrder bars = true := by
  have completes := c.completes_of_process s composer bars
  rw [← run_of_stages given made loaded] at completes
  by_contra disorder
  exact silent (completes.warns_order.mpr ⟨unsorted, by simpa using disorder⟩)

end Command

/-- The check of the order and the sort agree on every history: it counts as being in order exactly
where sorting leaves its dated bars as they are, wherever undated ones stand. So a history all of
whose bars are dated is in order exactly where sorting changes nothing. And a run that loads such a
history, is not told to sort, and does not warn of the order, where nothing is set for the filter of
events, is the run of the same command told to sort: it prints the same, ends with the same code and
tells the same events. -/
theorem order_check_agrees_with_sort (bars : List Bar) :
    (Bar.inOrder bars = true ↔ (Bar.sort bars).filter Bar.isDated = bars.filter Bar.isDated) ∧
      ((∀ b ∈ bars, b.isDated = true) → (Bar.inOrder bars = true ↔ Bar.sort bars = bars)) ∧
      ∀ (openFile : List Char → Opened) (c : Command), c.sort = false →
        loadHistory c.input (openFile c.input) = .ok bars → (∀ b ∈ bars, b.isDated = true) →
        ¬ (c.run openFile).Warns Command.unordered → c.sorting.run openFile = c.run openFile := by
  refine ⟨Bar.inOrder_iff_filter_sort bars, Bar.inOrder_iff_sort, ?_⟩
  intro openFile c unsorted loaded dated silent
  refine Command.run_sorting fun s composer others given made loaded' => ?_
  obtain rfl := Except.ok.inj (loaded.symm.trans loaded')
  have inOrder := Command.inOrder_of_not_warns unsorted given made loaded silent
  exact Command.process_sorting inOrder ((Bar.inOrder_iff_sort dated).mp inOrder) s composer

/-- Two bars at the same second, one of them with a fraction and the other one with a text, are in
order, and a run on them does not warn. -/
theorem order_check_agrees_with_sort_mixed :
    let text := "[\x7b\"time\":1.0,\"open\":1,\"high\":2,\"low\":1,\"close\":1.5\x7d,"
      ++ "\x7b\"time\":\"1970-01-01T00:00:01\",\"open\":1,\"high\":2,\"low\":1,\"close\":2\x7d]"
    let openFile (_ : List Char) : Opened := .ofText text.toList
    let c : Command :=
      { output := .verdict, input := "bars.json".toList, config := none, sort := false }
    ¬ (c.run openFile).Warns Command.unordered ∧ c.sorting.run openFile = c.run openFile := by
  intro text openFile c
  let fraction : Bar := ⟨.fractional 1, 1, 2, 1, 1.5, none⟩
  let written : Bar := ⟨.text "1970-01-01T00:00:01", 1, 2, 1, 2, none⟩
  have loaded : loadHistory c.input (openFile c.input) = .ok [fraction, written] := by
    rw [@Opened.loadHistory_ofText _ .json rfl]
    decide +kernel
  have inOrder : Bar.inOrder [fraction, written] = true := by decide +kernel
  have dated : ∀ b ∈ [fraction, written], b.isDated = true := by decide +kernel
  have silent : ¬ (c.run openFile).Warns Command.unordered := by
    obtain ⟨composer, made⟩ := Command.make_of_faultless (s := {}) (by decide)
    rw [Command.run_of_stages rfl made loaded]
    rw [(c.completes_of_process {} composer [fraction, written]).warns_order, inOrder]
    exact nofun
  exact ⟨silent,
    (order_check_agrees_with_sort [fraction, written]).2.2 openFile c rfl loaded dated silent⟩

end PriceSignals
