/-
Module: PriceSignals.Proofs.WindowDependence
Purpose: Bands and averages depend on their window alone, wherever it stands in a history and
  whether or not it is full. Nothing is used of the arithmetic of doubles: where the windows agree,
  the same operations are done on the same numbers.
Main exports:
  Series.windowAt, Series.ReadsWindows, Series.ReadsWindows.eq_of_present,
  Series.ReadsWindows.getElem?_append, Bands.ofWindow, Sma.readsWindows, Bollinger.readsWindows,
  bands_depend_on_window_alone
-/
import PriceSignals.Proofs.IndexedKernels

namespace PriceSignals

/-! ### Windows -/

namespace Series

section Windows

variable {α β : Type}

/-- The window of a size that ends at a place: the last `size` values up to there, or all of them if
there are fewer. -/
def windowAt (size : Nat) (xs : List α) (i : Nat) : List α :=
  (xs.take (i + 1)).drop (i + 1 - size)

theorem length_windowAt (size : Nat) {xs : List α} {i : Nat} (h : i < xs.length) :
    (windowAt size xs i).length = min size (i + 1) := by
  rw [windowAt, List.length_drop, List.length_take_of_le h]
  omega

/-- A window that is not full is the whole beginning. -/
theorem windowAt_of_le {size : Nat} {i : Nat} (h : i + 1 ≤ size) (xs : List α) :
    windowAt size xs i = xs.take (i + 1) := by
  rw [windowAt, Nat.sub_eq_zero_of_le h, List.drop_zero]

/-- A full window does not reach to what is in front of it. -/
theorem windowAt_append (older xs : List α) {size i : Nat} (h : size ≤ i + 1) :
    windowAt size (older ++ xs) (older.length + i) = windowAt size xs i := by
  have first : older.length + i + 1 - size = older.length + (i + 1 - size) := by omega
  rw [windowAt, windowAt, first, Nat.add_assoc, List.take_length_add_append,
    List.drop_length_add_append]

/-- A series that reads windows alone: where there are `least` values so far, it is made of the
window of a size that ends there, and before it has no values. -/
structure ReadsWindows (values : List α → List (Option β)) (size least : Nat) (f : List α → β) :
    Prop where
  length_eq : ∀ xs, (values xs).length = xs.length
  getElem?_eq : ∀ xs i, i < xs.length →
    (values xs)[i]? = some (if i + 1 < least then none else some (f (windowAt size xs i)))

namespace ReadsWindows

variable {values : List α → List (Option β)} {size least : Nat} {f : List α → β}

/-- What is present has been made of its window. -/
theorem eq_of_present (h : ReadsWindows values size least f) {xs : List α} {i : Nat} {b : β}
    (present : (values xs)[i]? = some (some b)) :
    i < xs.length ∧ least ≤ i + 1 ∧ b = f (windowAt size xs i) := by
  have inside : i < xs.length := by
    have bound := (List.getElem?_eq_some_iff.mp present).1
    rwa [h.length_eq] at bound
  rw [h.getElem?_eq xs i inside, Option.some.injEq] at present
  split at present
  · cases present
  · rename_i enough
    exact ⟨inside, Nat.le_of_not_lt enough, (Option.some.inj present).symm⟩

/-- Behind a full window nothing is known of what is in front of it. -/
theorem getElem?_append (h : ReadsWindows values size least f) (older xs : List α) {i : Nat}
    (full : size ≤ i + 1) (enough : least ≤ i + 1) :
    (values (older ++ xs))[older.length + i]? = (values xs)[i]? := by
  rcases Nat.lt_or_ge i xs.length with inside | outside
  · have later : older.length + i < (older ++ xs).length := by
      rw [List.length_append]
      omega
    rw [h.getElem?_eq xs i inside, h.getElem?_eq (older ++ xs) _ later,
      windowAt_append older xs full, if_neg (by omega), if_neg (by omega)]
  · have ended : (values xs)[i]? = none := by
      rwa [List.getElem?_eq_none_iff, h.length_eq]
    rw [ended, List.getElem?_eq_none_iff, h.length_eq, List.length_append]
    omega

end ReadsWindows

end Windows

end Series

namespace Indicator

open Series (ReadsWindows windowAt)

/-! ### The indicators -/

/-- The bands of a window: its mean, and a multiple of its deviation to both sides. -/
def Bands.ofWindow (multiplier : Float) (window : List Float) : Bands :=
  let middle := Series.mean window
  let width := multiplier * (Bollinger.variance window middle).sqrt
  { upper := middle + width, middle, lower := middle - width }

/-- The average is the mean of a full window. -/
theorem Sma.readsWindows (k : Sma) : ReadsWindows k.values k.period k.period Series.mean where
  length_eq := k.causal_values.length_eq
  getElem?_eq closes i inside := by
    rw [Indexed.getElem?_sma k inside]
    by_cases early : i + 1 < k.period
    · rw [if_pos early, if_pos early]
    · have full : (windowAt k.period closes i).length = k.period := by
        rw [Series.length_windowAt k.period inside]
        omega
      rw [if_neg early, if_neg early, Series.mean, full]
      rfl

/-- The moving average over the period of the bands. -/
def Bollinger.average (k : Bollinger) : Sma := ⟨k.period, k.period_pos⟩

/-- The bands are those of a window that has two values, or all that it can have. Both means, that
of a full window and that of a beginning, are the same sum over the same count. -/
theorem Bollinger.readsWindows (k : Bollinger) :
    ReadsWindows k.values k.period (min k.period 2) (Bands.ofWindow k.multiplier) where
  length_eq := k.causal_values.length_eq
  getElem?_eq closes i inside := by
    have average := k.average.readsWindows.getElem?_eq closes i inside
    have window : Series.latest k.period (closes.take (i + 1)).reverse
        = windowAt k.period closes i := Indexed.latest_upto k.period inside
    have count := Series.length_windowAt k.period inside
    have bands : (k.values closes)[i]? = _ := Indexed.getElem?_bands k inside average
    have period : k.average.period = k.period := rfl
    rw [bands, latest?, window, count, period]
    by_cases early : i + 1 < k.period
    · rw [if_pos (by omega)]
      by_cases single : i + 1 < 2
      · rw [if_pos (by omega), if_pos (by omega)]
      · rw [if_neg (by omega), if_neg (by omega)]
        rfl
    · rw [if_neg (by omega), if_neg early, if_neg (by omega)]
      rfl

/-- Bands and averages depend on their window alone. At places whose windows agree, in any two
histories and for any two periods, bands with the same multiplier are the same where both are
present, and so are averages. Therefore the bands of a window that is not full are those of the
shorter period that it would fill, and closes in front of a full window change nothing. Where the
average over the same period is present, it is the middle of bands that are present. -/
theorem bands_depend_on_window_alone (k : Bollinger) (a : List Float) (i : Nat) :
    (∀ (l : Bollinger) (b : List Float) (j : Nat) (u v : Bands), l.multiplier = k.multiplier →
        windowAt l.period b j = windowAt k.period a i →
        (k.values a)[i]? = some (some u) → (l.values b)[j]? = some (some v) → v = u) ∧
      (∀ (l : Sma) (b : List Float) (j : Nat) (s t : Float),
        windowAt l.period b j = windowAt k.period a i →
        (k.average.values a)[i]? = some (some s) → (l.values b)[j]? = some (some t) → t = s) ∧
      (∀ (l : Bollinger) (u : Bands), l.multiplier = k.multiplier → l.period = i + 1 →
        i + 1 ≤ k.period → (k.values a)[i]? = some (some u) → (l.values a)[i]? = some (some u)) ∧
      (∀ older : List Float, k.period ≤ i + 1 →
        (k.values (older ++ a))[older.length + i]? = (k.values a)[i]? ∧
          (k.average.values (older ++ a))[older.length + i]? = (k.average.values a)[i]?) ∧
      ∀ s : Float, (k.average.values a)[i]? = some (some s) →
        ∃ u, (k.values a)[i]? = some (some u) ∧ u.middle = s := by
  have bands := k.readsWindows
  have averages := k.average.readsWindows
  have period : k.average.period = k.period := rfl
  rw [period] at averages
  refine ⟨?_, ?_, ?_, ?_, ?_⟩
  · intro l b j u v multiplier window first second
    rw [(bands.eq_of_present first).2.2, (l.readsWindows.eq_of_present second).2.2, multiplier,
      window]
  · intro l b j s t window first second
    rw [(averages.eq_of_present first).2.2, (l.readsWindows.eq_of_present second).2.2, window]
  · intro l u multiplier full short present
    rcases bands.eq_of_present present with ⟨inside, -, value⟩
    rw [l.readsWindows.getElem?_eq a i inside, full, if_neg (by omega), value, multiplier,
      Series.windowAt_of_le short, Series.windowAt_of_le (Nat.le_refl _)]
  · intro older full
    have enough : min k.period 2 ≤ i + 1 := Nat.le_trans (Nat.min_le_left _ _) full
    exact ⟨bands.getElem?_append older a full enough, averages.getElem?_append older a full full⟩
  · intro s present
    rcases averages.eq_of_present present with ⟨inside, full, value⟩
    refine ⟨Bands.ofWindow k.multiplier (windowAt k.period a i), ?_, value.symm⟩
    rw [bands.getElem?_eq a i inside, if_neg (by omega)]

/-- A full window of three behind another close, and a history of the same three closes that are
not yet a full window. -/
theorem bands_depend_on_window_alone_three :
    let full : Bollinger := ⟨3, 2, by decide, by decide⟩
    let early : Bollinger := ⟨20, 2, by decide, by decide⟩
    ∃ u v, (full.values [5, 1, 2, 3])[3]? = some (some u) ∧
      (early.values [1, 2, 3])[2]? = some (some v) ∧ v = u := by
  intro full early
  have first := full.readsWindows.getElem?_eq [5, 1, 2, 3] 3 (by decide)
  have second := early.readsWindows.getElem?_eq [1, 2, 3] 2 (by decide)
  rw [if_neg (by decide)] at first second
  have same := (bands_depend_on_window_alone full [5, 1, 2, 3] 3).1 early [1, 2, 3] 2 _ _ rfl rfl
    first second
  exact ⟨_, _, first, second, same⟩

end Indicator

end PriceSignals
