/-
Module: PriceSignals.Proofs.BandOrder
Purpose: The order of the three bands. The width is not below zero, whatever the window holds, so a
  step of that width does not lead to the wrong side of the middle, also where it overflows. A band
  is NaN only where the mean or the variance of its window is not finite.
Main exports:
  Bollinger.width, Bollinger.not_width_lt_zero, Bollinger.isNaN_width, Bands.lower_le_middle,
  Bands.middle_le_upper, Bands.isNaN_ofWindow, bands_ordered
-/
import PriceSignals.Proofs.FloatLevels
import PriceSignals.Proofs.FloatRoots
import PriceSignals.Proofs.WindowDependence

namespace PriceSignals

open Binary64

namespace Indicator

/-! ### The width -/

/-- The distance of the outer bands of a window from its middle. -/
def Bollinger.width (multiplier : Float) (window : List Float) : Float :=
  multiplier * (variance window (Series.mean window)).sqrt

namespace Bollinger

theorem not_variance_lt_zero (window : List Float) (middle : Float) :
    ¬ variance window middle < 0 := by
  refine not_div_ofNat_lt_zero (Series.not_total_lt_zero fun square member => ?_) window.length
  obtain ⟨price, -, rfl⟩ := List.mem_map.mp member
  exact not_mul_self_lt_zero (price - middle)

/-- A multiplier is not below zero, and neither is a root. -/
theorem not_width_lt_zero {multiplier : Float} (ok : IsMultiplier multiplier)
    (window : List Float) : ¬ width multiplier window < 0 := by
  have above : ¬ multiplier < 0 := fun below => not_le_of_lt below ok.2
  exact not_mul_lt_zero above (not_sqrt_lt_zero _)

/-- The root of a finite variance is finite, so that no infinity is multiplied by zero. -/
theorem isNaN_width {multiplier : Float} (ok : IsMultiplier multiplier) {window : List Float}
    (finite : (variance window (Series.mean window)).isFinite = true) :
    (width multiplier window).isNaN = false := by
  obtain ⟨m, hm⟩ := exists_value? ok.1
  obtain ⟨v, hv⟩ := exists_value? finite
  have nonneg : 0 ≤ v := nonneg_of_not_lt_zero (not_variance_lt_zero _ _) (level?_of_value? hv)
  obtain ⟨root, hroot⟩ := (hasValue_of_value? hv nonneg).sqrt
  exact isNaN_of_level? (level?_mul hm hroot.value?_eq)

end Bollinger

/-! ### The bands of a window -/

namespace Bands

variable {multiplier : Float} {window : List Float}

theorem lower_le_middle (ok : IsMultiplier multiplier)
    (number : (ofWindow multiplier window).lower.isNaN = false) :
    (ofWindow multiplier window).lower ≤ (ofWindow multiplier window).middle :=
  sub_le_of_not_lt_zero (Bollinger.not_width_lt_zero ok window) number

theorem middle_le_upper (ok : IsMultiplier multiplier)
    (number : (ofWindow multiplier window).upper.isNaN = false) :
    (ofWindow multiplier window).middle ≤ (ofWindow multiplier window).upper :=
  le_add_of_not_lt_zero (Bollinger.not_width_lt_zero ok window) number

/-- Around a finite mean, a width that is a number leads to numbers, even if it is infinite. -/
theorem isNaN_ofWindow (ok : IsMultiplier multiplier)
    (mean : (Series.mean window).isFinite = true)
    (variance : (Bollinger.variance window (Series.mean window)).isFinite = true) :
    (ofWindow multiplier window).lower.isNaN = false ∧
      (ofWindow multiplier window).middle.isNaN = false ∧
      (ofWindow multiplier window).upper.isNaN = false := by
  have width := Binary64.le_refl (Bollinger.isNaN_width ok variance)
  exact ⟨(isNaN_of_le (const_sub_anti mean width)).1, isNaN_eq_false_of_isFinite mean,
    (isNaN_of_le (const_add_mono mean width)).1⟩

end Bands

/-! ### The bands of a history -/

/-- Bands are ordered. Over any closes, also infinite ones and NaN, a lower band that is a number is
not above the middle and an upper band that is a number is not below it. All three are numbers
where the mean of the window and the variance around it are finite; the bands themselves may still
be infinite then. -/
theorem bands_ordered (k : Bollinger) {closes : List Float} {i : Nat} {b : Bands}
    (present : (k.values closes)[i]? = some (some b)) :
    (b.lower.isNaN = false → b.lower ≤ b.middle) ∧
      (b.upper.isNaN = false → b.middle ≤ b.upper) ∧
      let window := Series.windowAt k.period closes i
      ((Series.mean window).isFinite = true →
        (Bollinger.variance window (Series.mean window)).isFinite = true →
          b.lower.isNaN = false ∧ b.middle.isNaN = false ∧ b.upper.isNaN = false) := by
  obtain ⟨-, -, rfl⟩ := k.readsWindows.eq_of_present present
  have ok := k.multiplier_ok
  exact ⟨Bands.lower_le_middle ok, Bands.middle_le_upper ok, Bands.isNaN_ofWindow ok⟩

/-- A usual window, and one of two huge closes with opposite signs: their mean is zero, the variance
overflows, and the outer bands are the infinities. -/
theorem bands_ordered_two :
    let k : Bollinger := ⟨20, 2, by decide, by decide⟩
    (∃ b, (k.values [1, 3])[1]? = some (some b) ∧ b.lower ≤ b.middle ∧ b.middle ≤ b.upper) ∧
      ∃ b, (k.values [1.5e308, -1.5e308])[1]? = some (some b) ∧ b.lower ≤ b.middle ∧
        b.middle ≤ b.upper ∧ b.upper.isInf = true := by
  intro k
  have usual : (k.values [1, 3])[1]? = some (some _) :=
    k.readsWindows.getElem?_eq [1, 3] 1 (by decide)
  have wide : (k.values [1.5e308, -1.5e308])[1]? = some (some _) :=
    k.readsWindows.getElem?_eq [1.5e308, -1.5e308] 1 (by decide)
  obtain ⟨low, high, numbers⟩ := bands_ordered k usual
  obtain ⟨lower, -, upper⟩ := numbers (by decide +kernel) (by decide +kernel)
  obtain ⟨low', high', -⟩ := bands_ordered k wide
  exact ⟨⟨_, usual, low lower, high upper⟩,
    _, wide, low' (by decide +kernel), high' (by decide +kernel), by decide +kernel⟩

end Indicator

end PriceSignals
