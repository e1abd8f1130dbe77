/-
Module: PriceSignals.Proofs.OneSidedMarkets
Purpose: The relative strength index of closes that only rise, and of closes that never do. One of
  the two averages is then a zero, over the first mean and all smoothing. Without gains the index
  is exactly zero. Without losses the floor stands in for them, and it decides how the gains read: a
  market that rises by less than the floor reads as weak.
Main exports:
  Series.forall_changes, Rsi.value?_average_zero, Rsi.rising_market_reads,
  Rsi.isNaN_average, falling_market_reads_zero
-/
import PriceSignals.Proofs.Columns
import PriceSignals.Proofs.IndexRange
import PriceSignals.Rule

namespace PriceSignals

open Binary64

/-- A change leads from one close to the next. -/
theorem Series.exists_of_mem_changes {r : Float → Float → Prop} {closes : List Float}
    (chain : closes.IsChain r) {d : Float} (member : d ∈ changes closes) :
    ∃ x ∈ closes, ∃ y ∈ closes, r x y ∧ d = y - x := by
  induction chain with
  | nil => cases member
  | singleton => cases member
  | @cons_cons x y rest related chain ih =>
      rcases List.mem_cons.mp member with rfl | later
      · exact ⟨x, by simp, y, by simp, related, rfl⟩
      · obtain ⟨x', hx, y', hy, related', change⟩ := ih later
        exact ⟨x', List.mem_cons_of_mem x hx, y', List.mem_cons_of_mem x hy, related', change⟩

/-- What holds of the change between any two closes in a row holds of the changes up to a place. -/
theorem Series.forall_changes {r : Float → Float → Prop} {closes : List Float}
    (chain : closes.IsChain r) {f : Float → Float} {holds : Float → Prop}
    (each : ∀ x ∈ closes, ∀ y ∈ closes, r x y → holds (f (y - x))) (i : Nat) :
    ∀ v ∈ ((changes closes).take i).map f, holds v := by
  intro v member
  obtain ⟨change, among, rfl⟩ := List.mem_map.mp member
  obtain ⟨x, hx, y, hy, related, rfl⟩ := exists_of_mem_changes chain (List.mem_of_mem_take among)
  exact each x hx y hy related

namespace Indicator.Rsi

/-! ### Gains and losses of one sign -/

theorem positivePart_of_le_zero {x : Float} (h : x ≤ 0) : positivePart x = 0.0 :=
  if_neg fun above => not_le_of_lt above h

theorem gain_of_falling {x y : Float} (hx : x.isFinite = true) (hy : y.isFinite = true)
    (falling : y ≤ x) : gain (y - x) = 0.0 := by
  obtain ⟨a, ha⟩ := exists_value? hx
  obtain ⟨b, hb⟩ := exists_value? hy
  have below : b - a ≤ 0 := by
    linarith [(le_iff_of_level? (level?_of_value? hb) (level?_of_value? ha)).mp falling]
  have change : y - x ≤ 0 := by
    rw [le_iff_of_level? (level?_sub hb ha) level?_zero, ← stored_zero]
    exact stored_mono below
  exact positivePart_of_le_zero change

theorem loss_of_rising {x y : Float} (hx : x.isFinite = true) (hy : y.isFinite = true)
    (rising : x < y) : loss (y - x) = 0.0 := by
  obtain ⟨a, ha⟩ := exists_value? hx
  obtain ⟨b, hb⟩ := exists_value? hy
  have above : 0 ≤ b - a := by
    linarith [(lt_iff_of_level? (level?_of_value? ha) (level?_of_value? hb)).mp rising]
  have change : 0 ≤ y - x := by
    rw [le_iff_of_level? level?_zero (level?_sub hb ha), ← stored_zero]
    exact stored_mono above
  exact positivePart_of_le_zero (le_trans (neg_anti change) (by decide))

theorem isFinite_loss {change : Float} (finite : change.isFinite = true) :
    (loss change).isFinite = true := by
  obtain ⟨d, hd⟩ := exists_value? finite
  unfold loss positivePart
  split
  · rw [← isSome_value?, value?_neg hd]
    rfl
  · decide

/-! ### An average of zeros -/

/-- The average of zeros is a zero, however often it is smoothed. -/
theorem value?_average_zero (k : Rsi) (word : k.period < UInt64.size) {values : List Float}
    (zeros : ∀ v ∈ values, v = 0.0) : value? (k.average values) = some 0 := by
  have before : k.period - 1 < UInt64.size := Nat.lt_of_le_of_lt (Nat.sub_le k.period 1) word
  have nonzero : rounded (k.period : ℚ) ≠ 0 := (rounded_pos k.period_pos).ne'
  have mean {x : Float} (h : value? x = some 0) : value? (x / Float.ofNat k.period) = some 0 :=
    value?_zero_div h (value?_ofNat word) nonzero
  have total : value? (Series.total (values.take k.period)) = some 0 := by
    refine @Series.total_induction (fun x => value? x = some 0) _ rfl fun x v h member => ?_
    rw [zeros v (List.mem_of_mem_take member)]
    exact value?_zero_add h value?_zero
  refine @average_induction k (fun x => value? x = some 0) _ (mean total) fun x v h member => ?_
  rw [zeros v member]
  exact mean (value?_zero_add (value?_zero_mul h (value?_ofNat before)) value?_zero)

/-! ### Closes that only rise -/

/-- Over the floor, gains read as strong from the third double above it. At the two doubles before,
their ratio to the floor is still rounded to one. -/
theorem fifty_lt_scale_iff {g : Float} (nonneg : ¬ g < 0) :
    50.0 < scale (g / lossFloor) ↔ 0.00010000000000000005 ≤ g := by
  have positive : 0 < lossFloor := by decide
  have finite : lossFloor.isFinite = true := by decide
  have ratio {x y : Float} (h : x ≤ y) : x / lossFloor ≤ y / lossFloor :=
    div_const_mono finite positive h
  constructor
  case mp =>
    intro strong
    by_contra weak
    cases number : g.isNaN with
    | true =>
        have none : (scale (g / lossFloor)).isNaN = true := by
          rw [@eq_of_isNaN g (0.0 / 0.0) number (by decide)]
          decide +kernel
        rw [(isNaN_of_ordering? (lt_iff_ordering?.mp strong)).2] at none
        cases none
    | false =>
        -- There is no double between the last one that reads as fifty and the first one above.
        have below : g < 0.00010000000000000005 := lt_of_not_le (by decide) number weak
        have last : g ≤ 0.00010000000000000003 :=
          @le_of_lt_next g 0.00010000000000000003 0.00010000000000000005 _ _ _ _ rfl rfl below
        have least : 0 ≤ g := (not_lt_iff_le number (by decide)).mp nonneg
        have upper : scale (g / lossFloor) ≤ scale (0.00010000000000000003 / lossFloor) :=
          scale_mono (le_trans (by decide) (ratio least)) (ratio last)
        have impossible : (50.0 : Float) < scale (0.00010000000000000003 / lossFloor) :=
          lt_of_lt_of_le strong upper
        exact absurd impossible (by decide +kernel)
  case mpr =>
    intro large
    have lower : scale (0.00010000000000000005 / lossFloor) ≤ scale (g / lossFloor) :=
      scale_mono (by decide) (ratio large)
    exact lt_of_lt_of_le (by decide +kernel) lower

/-- Closes that only rise have an average loss of zero, so that the index sets their average gain
against the floor. It is above fifty exactly where that gain is above the floor by three doubles or
more; below, a market reads the weaker the smaller its prices are. -/
theorem rising_market_reads (k : Rsi) (word : k.period < UInt64.size) {closes : List Float}
    (rising : closes.IsChain (· < ·)) (finite : ∀ c ∈ closes, c.isFinite = true) {i : Nat}
    {v : Float} (present : (k.values closes)[i]? = some (some v)) :
    ((k.behind closes i).loss == 0.0) = true ∧
      v = 100.0 - 100.0 / (1.0 + (k.behind closes i).gain / 1e-4) ∧
      (50.0 < v ↔ 0.00010000000000000005 ≤ (k.behind closes i).gain) := by
  obtain ⟨-, -, value⟩ := k.value_of_present present
  have zeros : ∀ v ∈ ((Series.changes closes).take i).map loss, v = 0.0 :=
    Series.forall_changes rising (fun x hx y hy => loss_of_rising (finite x hx) (finite y hy)) i
  have none : ((k.behind closes i).loss == 0.0) = true := by
    rw [behind, after_eq]
    exact beq_zero_of_value? (k.value?_average_zero word zeros)
  have floored : v = scale ((k.behind closes i).gain / lossFloor) := by
    rw [value, index_eq, divisor, if_pos none]
  refine ⟨none, floored, ?_⟩
  rw [floored]
  exact fifty_lt_scale_iff (k.not_gain_lt_zero _)

/-- A market that doubles, far above the floor. -/
theorem rising_market_reads_strong :
    ((⟨2, by decide⟩ : Rsi).values [100.0, 150.0, 200.0])[2]? = some (some 99.9998000004) ∧
      (50.0 : Float) < 99.9998000004 := by
  have present : ((⟨2, by decide⟩ : Rsi).values [100.0, 150.0, 200.0])[2]?
      = some (some 99.9998000004) := by decide +kernel
  have rising : @List.IsChain Float (· < ·) [100.0, 150.0, 200.0] := by decide
  have reads := rising_market_reads ⟨2, by decide⟩ (by decide) rising (by decide) present
  exact ⟨present, reads.2.2.mpr (by decide +kernel)⟩

/-- A market that rises by a billionth at each close has an index near zero. -/
theorem rising_market_reads_weak :
    @List.IsChain Float (· < ·) [1.2354e-5, 1.2355e-5, 1.2356e-5] ∧
      (∀ c ∈ [1.2354e-5, 1.2355e-5, 1.2356e-5], Float.isFinite c = true) ∧
      ((⟨2, by decide⟩ : Rsi).values [1.2354e-5, 1.2355e-5, 1.2356e-5])[2]?
        = some (some 0.0009999900001105289) ∧
      ¬ (50.0 : Float) < 0.0009999900001105289 := by
  decide +kernel

/-! ### Closes that never rise -/

/-- Over a single change there is nothing to smooth: the average is the latest value. -/
theorem isFinite_average_one (k : Rsi) (single : k.period = 1) {values : List Float}
    (finite : ∀ v ∈ values, v.isFinite = true) : (k.average values).isFinite = true := by
  have one : value? (Float.ofNat 1) = some 1 := by
    have count := @hasValue_ofNat 1 (by decide)
    rw [Nat.cast_one] at count
    exact count.value?_eq
  have total : ∃ b, value? (Series.total (values.take 1)) = some b := by
    cases values with
    | nil => exact ⟨0, rfl⟩
    | cons v rest =>
        obtain ⟨b, value⟩ := exists_value? (finite v (by simp))
        exact ⟨b, @value?_zero_add (-0.0) v b rfl value⟩
  have value : ∃ b, value? (k.average values) = some b := by
    refine @average_induction k (fun x => ∃ b, value? x = some b) values ?_ ?_
    case refine_1 =>
      obtain ⟨b, sum⟩ := total
      rw [single]
      exact ⟨b, value?_div_one sum one⟩
    case refine_2 =>
      rintro kept v ⟨a, old⟩ member
      obtain ⟨b, new⟩ := exists_value? (finite v member)
      refine ⟨b, ?_⟩
      rw [smooth, single]
      exact value?_div_one (value?_zero_add (value?_mul_zero old rfl) new) one
  rw [← isSome_value?, Option.isSome_iff_exists]
  exact value

/-- The average of finite values may overflow, but is a number. An average of two or more changes
counts at least once in the next, so that an infinite one stays infinite. -/
theorem isNaN_average (k : Rsi) (word : k.period < UInt64.size) {values : List Float}
    (finite : ∀ v ∈ values, v.isFinite = true) : (k.average values).isNaN = false := by
  -- Over one change the old average counts zero times, and an infinite one would become NaN.
  rcases Nat.eq_or_lt_of_le k.period_pos with single | several
  · exact isNaN_eq_false_of_isFinite (k.isFinite_average_one single.symm finite)
  · have before : k.period - 1 < UInt64.size := Nat.lt_of_le_of_lt (Nat.sub_le k.period 1) word
    have again : 0 < k.period - 1 := Nat.sub_pos_of_lt several
    have divided {x : Float} (number : x.isNaN = false) :
        (x / Float.ofNat k.period).isNaN = false :=
      isNaN_div number (isFinite_ofNat word) (ofNat_pos word k.period_pos)
    have total : (Series.total (values.take k.period)).isNaN = false :=
      @Series.total_induction (fun x => x.isNaN = false) _ (by decide) fun x v number member =>
        isNaN_add number (finite v (List.mem_of_mem_take member))
    refine @average_induction k (fun x => x.isNaN = false) values (divided total) ?_
    intro kept v number member
    exact divided (isNaN_add (isNaN_mul number (isFinite_ofNat before) (ofNat_pos before again))
      (finite v member))

/-- Without gains the index is zero, whatever the losses are. -/
theorem index_without_gains {a : Averages} (none : value? a.gain = some 0)
    (number : a.loss.isNaN = false) : index a = 0.0 := by
  have divides : (divisor a).isNaN = false := by
    unfold divisor
    split
    · decide
    · exact number
  obtain ⟨d, hd⟩ := exists_level? divides
  have ratio : value? (a.gain / divisor a) = some 0 := by
    rcases level?_cases hd with value | ⟨s, form, -⟩
    · exact value?_zero_div none value (ne_zero_of_beq value (divisor_ne_zero a))
    · refine value?_of_level? (level?_div_infinity none form) ?_
      rw [abs_zero]
      exact tooLarge_pos
  rw [index_eq]
  rcases zero_of_value? ratio with zero | zero
  · rw [zero]
    decide
  · rw [zero]
    decide

/-- Closes that never rise have an average gain of zero, so that the index is zero. -/
theorem value_of_falling (k : Rsi) (word : k.period < UInt64.size) {closes : List Float}
    (falling : closes.IsChain fun x y => y ≤ x) (finite : ∀ c ∈ closes, c.isFinite = true)
    (steps : ∀ d ∈ Series.changes closes, d.isFinite = true) {i : Nat} {v : Float}
    (present : (k.values closes)[i]? = some (some v)) : v = 0.0 := by
  obtain ⟨-, -, value⟩ := k.value_of_present present
  have zeros : ∀ v ∈ ((Series.changes closes).take i).map gain, v = 0.0 :=
    Series.forall_changes falling (fun x hx y hy => gain_of_falling (finite x hx) (finite y hy)) i
  have losses : ∀ v ∈ ((Series.changes closes).take i).map loss, v.isFinite = true := by
    intro v member
    obtain ⟨change, among, rfl⟩ := List.mem_map.mp member
    exact isFinite_loss (steps change (List.mem_of_mem_take among))
  rw [value, behind, after_eq]
  exact index_without_gains (k.value?_average_zero word zeros) (k.isNaN_average word losses)

end Indicator.Rsi

/-- Where the index is zero, any threshold above zero calls for buying. -/
theorem Rule.judge_rsiExtremes_of_zero {t : Thresholds} (above : 0.0 < t.oversold)
    {current : Annotated} (zero : current.rsi = some 0.0) (previous : Annotated) :
    (Rule.rsiExtremes t).judge current previous
      = some ⟨.buy, 70.0, "RSI oversold (<" ++ Decimal.display t.oversold ++ ")"⟩ := by
  simp only [Rule.rsiExtremes, zero, Option.bind_eq_bind, Option.bind_some, if_pos above]

/-- A market that never rises reads exactly zero, for any period, constant prices among them. In a
composed history the rule on extremes votes to buy at each bar that has an index, whatever else the
bars hold and for any threshold above zero. -/
theorem falling_market_reads_zero {closes : List Float} (falling : closes.IsChain fun x y => y ≤ x)
    (finite : ∀ c ∈ closes, c.isFinite = true)
    (steps : ∀ d ∈ Series.changes closes, d.isFinite = true) :
    (∀ k : Indicator.Rsi, k.period < UInt64.size → ∀ (i : Nat) (v : Float),
        (k.values closes)[i]? = some (some v) → v = 0.0) ∧
      ∀ s c, Composer.make s = .ok c → ∀ bars : List Bar, bars.map (·.close) = closes →
        ∀ i : Nat, s.rsiPeriod.toNat ≤ i → i < bars.length →
          ∃ current, (c.annotate bars)[i]? = some current ∧ current.rsi = some 0.0 ∧
            ∀ t : Thresholds, 0.0 < t.oversold → ∀ previous,
              (Rule.rsiExtremes t).judge current previous
                = some ⟨.buy, 70.0, "RSI oversold (<" ++ Decimal.display t.oversold ++ ")"⟩ := by
  have reads (k : Indicator.Rsi) (word : k.period < UInt64.size) (i : Nat) (v : Float)
      (present : (k.values closes)[i]? = some (some v)) : v = 0.0 :=
    k.value_of_falling word falling finite steps present
  refine ⟨reads, ?_⟩
  intro s c made bars same i late inside
  have period : c.rsi.period = s.rsiPeriod.toNat := by
    obtain ⟨valid, rfl⟩ := Composer.make_eq_ok_iff.mp made
    rfl
  have bound : i < (c.annotate bars).length := by rwa [Composer.length_annotate]
  obtain ⟨current, found⟩ : ∃ current, (c.annotate bars)[i]? = some current :=
    ⟨_, List.getElem?_eq_getElem bound⟩
  have reading : (c.rsi.values closes)[i]? = some current.rsi := by
    rw [← same, ← c.annotate_rsi, List.getElem?_map, found, Option.map_some]
  have late : c.rsi.lookback ≤ i := by
    rw [Indicator.Rsi.lookback, period]
    exact late
  have begun : current.rsi.isSome = true :=
    (c.rsi.beginsAt_values closes i current.rsi reading).mpr late
  obtain ⟨v, value⟩ := Option.isSome_iff_exists.mp begun
  rw [value] at reading
  rw [reads c.rsi (period ▸ s.rsiPeriod.toNat_lt) i v reading] at value
  exact ⟨current, found, value, fun t above => Rule.judge_rsiExtremes_of_zero above value⟩

/-- A market that falls and then stands still, over a single change. -/
theorem falling_market_reads_zero_at_rest :
    let bar (close : Float) : Bar := ⟨.unix 0, close, close, close, close, none⟩
    @List.IsChain Float (fun x y => y ≤ x) [3.0, 1.0, 1.0] ∧
      ∃ c, Composer.make { rsiPeriod := 1 } = .ok c ∧
        ∃ current, (c.annotate [bar 3.0, bar 1.0, bar 1.0])[2]? = some current ∧
          current.rsi = some 0.0 ∧
          (Rule.rsiExtremes {}).judge current current
            = some ⟨.buy, 70.0, "RSI oversold (<" ++ Decimal.display 30.0 ++ ")"⟩ := by
  intro bar
  have falling : @List.IsChain Float (fun x y => y ≤ x) [3.0, 1.0, 1.0] := by decide
  have valid : IndicatorSettings.fault? { rsiPeriod := 1 } = none := by decide
  have reads := (falling_market_reads_zero falling (by decide) (by decide)).2
  have made := Composer.make_eq_ok_iff.mpr ⟨valid, rfl⟩
  obtain ⟨current, found, zero, fires⟩ :=
    reads _ _ made [bar 3.0, bar 1.0, bar 1.0] rfl 2 (by decide) (by decide)
  exact ⟨falling, _, made, current, found, zero, fires {} (by decide) current⟩

end PriceSignals
