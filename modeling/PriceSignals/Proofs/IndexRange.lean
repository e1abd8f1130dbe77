/-
Module: PriceSignals.Proofs.IndexRange
Purpose: The range of the relative strength index. Neither average is ever below zero, and the index
  grows with their ratio, so that it lies between its values at zero and at infinity, whatever the
  closes are: sums may overflow, and an infinite average over zero further changes is NaN.
Main exports:
  Rsi.average, Rsi.after_eq, Rsi.average_induction, Rsi.scale, Rsi.scale_mono, Rsi.behind,
  Rsi.value_of_present, Rsi.index_in_range
-/
import PriceSignals.Proofs.FloatMonotonicity
import PriceSignals.Proofs.FloatSign
import PriceSignals.Proofs.WilderRecurrence

namespace PriceSignals

namespace Indicator.Rsi

open Binary64

/-! ### One of the two averages -/

/-- The average of some gains, or of some losses. -/
def average (k : Rsi) (values : List Float) : Float :=
  (values.drop k.period).foldl k.smooth (Series.total (values.take k.period) / Float.ofNat k.period)

theorem foldl_next (k : Rsi) (changes : List Float) (a : Averages) :
    changes.foldl k.next a
      = ⟨(changes.map gain).foldl k.smooth a.gain, (changes.map loss).foldl k.smooth a.loss⟩ := by
  induction changes generalizing a with
  | nil => rfl
  | cons change rest ih => exact ih (k.next a change)

/-- The averages know nothing of each other. -/
theorem after_eq (k : Rsi) (changes : List Float) :
    k.after changes = ⟨k.average (changes.map gain), k.average (changes.map loss)⟩ := by
  rw [after, foldl_next]
  simp only [average, start, List.map_drop, List.map_take]

/-- What holds of the first mean, and of an average after each further value, holds of all. -/
theorem average_induction (k : Rsi) {holds : Float → Prop} {values : List Float}
    (mean : holds (Series.total (values.take k.period) / Float.ofNat k.period))
    (smooth : ∀ kept value, holds kept → value ∈ values → holds (k.smooth kept value)) :
    holds (k.average values) := by
  -- By induction on the values behind the first mean, for any average in front of them.
  have later (rest : List Float) (within : ∀ v ∈ rest, v ∈ values) (kept : Float)
      (h : holds kept) : holds (rest.foldl k.smooth kept) := by
    induction rest generalizing kept with
    | nil => exact h
    | cons value rest ih =>
        have next : holds (k.smooth kept value) := smooth kept value h (within value (by simp))
        exact ih (fun v member => within v (List.mem_cons_of_mem value member)) _ next
  exact later _ (fun _ => List.mem_of_mem_drop) _ mean

theorem not_positivePart_lt_zero (x : Float) : ¬ positivePart x < 0 := by
  unfold positivePart
  split
  · rename_i above
    exact not_lt_of_lt above
  · decide

/-- One more value does not bring an average below zero. -/
theorem not_smooth_lt_zero (k : Rsi) {kept value : Float} (hk : ¬ kept < 0) (hv : ¬ value < 0) :
    ¬ k.smooth kept value < 0 :=
  not_div_ofNat_lt_zero (not_add_lt_zero (not_mul_ofNat_lt_zero hk _) hv) _

theorem not_average_lt_zero (k : Rsi) {values : List Float} (h : ∀ v ∈ values, ¬ v < 0) :
    ¬ k.average values < 0 := by
  have first : ¬ Series.total (values.take k.period) < 0 :=
    Series.not_total_lt_zero fun v member => h v (List.mem_of_mem_take member)
  exact @average_induction k (fun x => ¬ x < 0) values (not_div_ofNat_lt_zero first _)
    fun _ _ kept member => k.not_smooth_lt_zero kept (h _ member)

/-- The average of positive parts is not below zero, whatever they are the parts of. -/
theorem not_average_positivePart_lt_zero (k : Rsi) (f : Float → Float) (changes : List Float) :
    ¬ k.average (changes.map fun change => positivePart (f change)) < 0 := by
  refine k.not_average_lt_zero fun v member => ?_
  obtain ⟨change, -, rfl⟩ := List.mem_map.mp member
  exact not_positivePart_lt_zero (f change)

theorem not_gain_lt_zero (k : Rsi) (changes : List Float) : ¬ (k.after changes).gain < 0 := by
  rw [after_eq]
  exact k.not_average_positivePart_lt_zero (fun change => change) changes

theorem not_loss_lt_zero (k : Rsi) (changes : List Float) : ¬ (k.after changes).loss < 0 := by
  rw [after_eq]
  exact k.not_average_positivePart_lt_zero (fun change => -change) changes

/-! ### The index and the ratio -/

/-- What the average gain is divided by. -/
def divisor (a : Averages) : Float := if a.loss == 0.0 then lossFloor else a.loss

/-- The index as a function of the ratio of gain and loss. -/
def scale (ratio : Float) : Float := 100.0 - 100.0 / (1.0 + ratio)

theorem index_eq (a : Averages) : index a = scale (a.gain / divisor a) := rfl

/-- The index grows with the ratio. -/
theorem scale_mono {x y : Float} (nonneg : 0 ≤ x) (h : x ≤ y) : scale x ≤ scale y := by
  have positive : 0 < 1.0 + x := lt_of_lt_of_le (by decide) (const_add_mono (by decide) nonneg)
  have quotient : 100.0 / (1.0 + y) ≤ 100.0 / (1.0 + x) :=
    const_div_anti (by decide) (by decide) positive (const_add_mono (by decide) h)
  exact const_sub_anti (by decide) quotient

theorem isNaN_scale {ratio : Float} (h : ratio.isNaN = true) : (scale ratio).isNaN = true := by
  rw [@eq_of_isNaN ratio (0.0 / 0.0) h (by decide)]
  decide

/-- A ratio that is a number gives an index between those of zero and of infinity. -/
theorem scale_range {ratio : Float} (nonneg : ¬ ratio < 0) (number : ratio.isNaN = false) :
    0.0 ≤ scale ratio ∧ scale ratio ≤ 100.0 := by
  have least : 0 ≤ ratio := (not_lt_iff_le number (by decide)).mp nonneg
  have lower : scale 0 ≤ scale ratio := scale_mono (by decide) least
  have upper : scale ratio ≤ scale infinity := scale_mono least (le_infinity number)
  exact ⟨le_trans (by decide) lower, le_trans upper (by decide)⟩

theorem not_divisor_lt_zero {a : Averages} (h : ¬ a.loss < 0) : ¬ divisor a < 0 := by
  unfold divisor
  split
  · decide
  · exact h

/-- The floor stands in for any zero, so there is none to divide by. -/
theorem divisor_ne_zero (a : Averages) : (divisor a == 0) = false := by
  unfold divisor
  split
  · decide
  · rename_i nonzero
    exact Bool.eq_false_iff.mpr nonzero

/-- Two finite averages that are not below zero have a ratio. -/
theorem isNaN_ratio {a : Averages} (finite_gain : a.gain.isFinite = true)
    (finite_loss : a.loss.isFinite = true) : (a.gain / divisor a).isNaN = false := by
  have finite : (divisor a).isFinite = true := by
    unfold divisor
    split
    · decide
    · exact finite_loss
  obtain ⟨g, hg⟩ := exists_value? finite_gain
  obtain ⟨d, hd⟩ := exists_value? finite
  exact isNaN_of_level? (level?_div hg hd (ne_zero_of_beq hd (divisor_ne_zero a)))

/-! ### The index at a place -/

/-- The averages from which the index at a place is computed. -/
def behind (k : Rsi) (closes : List Float) (i : Nat) : Averages :=
  k.after ((Series.changes closes).take i)

/-- A value that is there is the index of the averages behind it. -/
theorem value_of_present (k : Rsi) {closes : List Float} {i : Nat} {v : Float}
    (present : (k.values closes)[i]? = some (some v)) :
    k.period ≤ i ∧ i < closes.length ∧ v = index (k.behind closes i) := by
  have inside : i < closes.length := by
    rw [← k.length_values closes]
    exact (List.getElem?_eq_some_iff.mp present).1
  have count : ((Series.changes closes).take i).length = i := by
    rw [List.length_take, Series.length_changes]
    omega
  rw [k.getElem?_values inside, indexAfter, count] at present
  split at present
  · cases present
  · rename_i late
    exact ⟨Nat.le_of_not_lt late, inside, (Option.some.inj (Option.some.inj present)).symm⟩

/-- The relative strength index stays in its range, for any closes, NaN and infinities among them:
each value is NaN or lies between 0 and 100, and it is a number wherever both averages behind it are
finite. -/
theorem index_in_range (k : Rsi) {closes : List Float} {i : Nat} {v : Float}
    (present : (k.values closes)[i]? = some (some v)) :
    v = index (k.behind closes i) ∧ (v.isNaN = true ∨ 0.0 ≤ v ∧ v ≤ 100.0) ∧
      ((k.behind closes i).gain.isFinite = true → (k.behind closes i).loss.isFinite = true →
        v.isNaN = false) := by
  obtain ⟨-, -, value⟩ := k.value_of_present present
  have gain : ¬ (k.behind closes i).gain < 0 := k.not_gain_lt_zero _
  have loss : ¬ (k.behind closes i).loss < 0 := k.not_loss_lt_zero _
  generalize k.behind closes i = a at value gain loss
  have nonneg : ¬ a.gain / divisor a < 0 :=
    not_div_lt_zero gain (not_divisor_lt_zero loss) (divisor_ne_zero a)
  rw [value, index_eq]
  refine ⟨rfl, ?_, ?_⟩
  case refine_1 =>
    cases number : (a.gain / divisor a).isNaN with
    | true => exact .inl (isNaN_scale number)
    | false => exact .inr (scale_range nonneg number)
  case refine_2 =>
    intro finite_gain finite_loss
    obtain ⟨lower, -⟩ := scale_range nonneg (isNaN_ratio finite_gain finite_loss)
    exact (isNaN_of_le lower).2

/-- A gain that overflows, over a single change. The average is infinite and the index 100. At the
next close the infinite average counts zero times and makes the index NaN. -/
theorem index_in_range_of_overflow :
    ((⟨1, by decide⟩ : Rsi).values [-1.5e308, 1.5e308, 1.6e308])[1]? = some (some 100.0) ∧
      ((100.0 : Float).isNaN = true ∨ (0.0 : Float) ≤ 100.0 ∧ (100.0 : Float) ≤ 100.0) ∧
      ((⟨1, by decide⟩ : Rsi).values [-1.5e308, 1.5e308, 1.6e308])[2]? = some (some (0.0 / 0.0)) :=
  have present : ((⟨1, by decide⟩ : Rsi).values [-1.5e308, 1.5e308, 1.6e308])[1]?
      = some (some 100.0) := by decide +kernel
  ⟨present, (index_in_range _ present).2.1, by decide +kernel⟩

end Indicator.Rsi

end PriceSignals
