/-
Module: PriceSignals.Proofs.FlatMarket
Purpose: The convergence of a history whose closes are all one price. An exponential average adds
  two rounded shares of the price, which need not give the price again, and two averages may drift
  apart: then the line leaves zero and the crossover rule votes, although the market has not moved.
  All values are zero exactly where the two averages stay the same number, and the rule is silent
  then.
Main exports:
  Binary64.Alike, Binary64.Agree, Binary64.eq_of_stored_sub_eq_zero, Binary64.agree_iff_level?_sub,
  Ema.afterFlat, Ema.alike_series, Ema.zero_differences_iff, Ema.weight_range,
  Ema.series_zero, Convergence.IsZero, Macd.isZero_valuesFrom_iff, Annotated.AtRest,
  Rule.voteAt_of_atRest, Composer.atRest_annotate_iff, flat_market_rests_iff, flat_market_crosses
-/
import PriceSignals.Proofs.Crossover
import PriceSignals.Proofs.FloatLevels
import PriceSignals.Proofs.RunPairs

namespace PriceSignals

/-! ### Numbers that are the same -/

namespace Binary64

/-- Two doubles are the same number, the sign of a zero aside, or they are both NaN. -/
def Alike (x y : Float) : Prop := level? x = level? y

/-- Two doubles are the same finite number. -/
def Agree (x y : Float) : Prop := x.isFinite = true ∧ (x == y) = true

instance (x y : Float) : Decidable (Agree x y) := inferInstanceAs (Decidable (_ ∧ _))

section Laws

variable {x x' y y' : Float}

theorem alike_of_beq (h : (x == y) = true) : Alike x y := by
  obtain ⟨a, ha, hb⟩ := beq_iff_level?.mp h
  exact ha.trans hb.symm

theorem Alike.add (hx : Alike x x') (hy : Alike y y') : Alike (x + y) (x' + y') := by
  rw [Alike] at hx hy ⊢
  rw [level?_add_eq, level?_add_eq, hx, hy]

theorem Alike.sub (hx : Alike x x') (hy : Alike y y') : Alike (x - y) (x' - y') := by
  rw [Alike] at hx hy ⊢
  rw [level?_sub_eq, level?_sub_eq, hx, hy]

theorem Alike.mul_const (hx : Alike x x') (k : Float) : Alike (x * k) (x' * k) := by
  rw [Alike] at hx ⊢
  rw [level?_mul_eq, level?_mul_eq, hx]

/-- Finite doubles are whole multiples of the least one above zero. -/
theorem exists_multiple {a : ℚ} (h : value? x = some a) :
    ∃ n : Int, a = n * 2 ^ (-1074 : Int) := by
  obtain ⟨s, -, rfl⟩ | ⟨s, m, q, pos, form, rfl⟩ := value?_cases h
  · exact ⟨0, by rw [Int.cast_zero, zero_mul]⟩
  · exact ⟨_, (apply_shiftLeft s m (canonical_of_unpack form).least).symm⟩

/-- What reaches the least double is not stored as zero. -/
theorem stored_pos {v : ℚ} (large : 2 ^ (-1074 : Int) ≤ v) : 0 < stored v := by
  have pos : (0 : ℚ) < 2 ^ (-1074 : Int) := zpow_pos (by norm_num) _
  have least : IsDouble (2 ^ (-1074 : Int)) := by
    refine .inr ⟨1, -1074, ⟨by decide, by decide, by decide, by decide, .inr rfl⟩, ?_⟩
    rw [Nat.cast_one, one_mul]
  have kept := stored_signed .positive pos.le
  rw [signed_positive, signed_positive, rounded_of_isDouble least] at kept
  exact (kept ▸ lt_min pos tooLarge_pos).trans_le (stored_mono large)

/-- No difference of doubles is so small that it is stored as zero. -/
theorem eq_of_stored_sub_eq_zero {a b : ℚ} (hx : value? x = some a) (hy : value? y = some b)
    (h : stored (a - b) = 0) : a = b := by
  obtain ⟨n, rfl⟩ := exists_multiple hx
  obtain ⟨m, rfl⟩ := exists_multiple hy
  have unit : (0 : ℚ) ≤ 2 ^ (-1074 : Int) := (zpow_pos (by norm_num) _).le
  have apart {k l : Int} (less : k < l) :
      0 < stored (l * 2 ^ (-1074 : Int) - k * 2 ^ (-1074 : Int)) := by
    have one : (1 : ℚ) ≤ l - k := by
      have step : k + 1 ≤ l := less
      have step : (k : ℚ) + 1 ≤ l := by exact_mod_cast step
      linarith
    refine stored_pos ?_
    rw [← sub_mul]
    exact le_mul_of_one_le_left unit one
  rcases lt_trichotomy n m with less | rfl | more
  · have below := apart less
    rw [← neg_sub, stored_neg, h, neg_zero] at below
    exact absurd below (lt_irrefl 0)
  · rfl
  · exact absurd h (apart more).ne'

/-- Two doubles are the same finite number exactly where their difference is zero. -/
theorem agree_iff_level?_sub : Agree x y ↔ level? (x - y) = some 0 := by
  constructor
  · rintro ⟨finite, same⟩
    obtain ⟨a, ha⟩ := exists_value? finite
    obtain ⟨b, hb, hy⟩ := beq_iff_level?.mp same
    obtain rfl : a = b := Option.some.inj ((level?_of_value? ha).symm.trans hb)
    have hy : value? y = some a := value?_of_not_isEnd hy (not_isEnd_of_value? ha)
    rw [level?_sub ha hy, sub_self, stored_zero]
  · intro zero
    obtain ⟨a, b, ha, hb, sum⟩ := exists_level?_of_sub zero
    -- An infinity on either side would stand at the difference.
    have inner_b : ¬ IsEnd (-b) := fun outer =>
      ne_zero_of_isEnd outer (eq_of_sumLevel?_end outer sum).symm
    have inner_a : ¬ IsEnd a := fun outer =>
      ne_zero_of_isEnd outer (eq_of_sumLevel?_end outer (sumLevel?_comm a (-b) ▸ sum)).symm
    rw [sumLevel?_of_inner inner_a inner_b, ← sub_eq_add_neg, Option.some.injEq] at sum
    have hx := value?_of_not_isEnd ha inner_a
    have hy := value?_of_not_isEnd hb (mt isEnd_neg_iff.mpr inner_b)
    obtain rfl := eq_of_stored_sub_eq_zero hx hy sum
    refine ⟨?_, beq_iff_level?.mpr ⟨a, ha, hb⟩⟩
    rw [← isSome_value?, hx]
    rfl

theorem value?_one : value? 1.0 = some 1 :=
  HasValue.value?_eq (@HasValue.of_form 1.0 (2 ^ 52) (-52) (by decide) 1 rfl (by norm_num))

/-- What lies between zero and one is finite. -/
theorem exists_value?_of_range (low : 0 ≤ x) (high : x ≤ 1.0) : ∃ a, value? x = some a := by
  obtain ⟨a, ha⟩ := exists_level? (isNaN_of_le low).2
  have top := abs_lt_of_value? value?_one
  rw [abs_one] at top
  rw [le_iff_of_level? level?_zero ha] at low
  rw [le_iff_of_level? ha (level?_of_value? value?_one)] at high
  exact ⟨a, value?_of_level? ha ((abs_of_nonneg low).trans_lt (high.trans_lt top))⟩

theorem value?_zero_of_level? (h : level? x = some 0) : value? x = some 0 :=
  value?_of_level? h (abs_zero.trans_lt tooLarge_pos)

/-- A double is equal to zero exactly where it has that value. -/
theorem beq_zero_iff : (x == 0) = true ↔ value? x = some 0 := by
  rw [beq_iff_level?, level?_zero]
  constructor
  · rintro ⟨a, ha, zero⟩
    obtain rfl := Option.some.inj zero
    exact value?_zero_of_level? ha
  · intro h
    exact ⟨0, level?_of_value? h, rfl⟩

end Laws

end Binary64

open Binary64

namespace Indicator

/-! ### Averages of one price -/

namespace Ema

/-- The average after `n` more closes at one price, which was the first close. -/
def afterFlat (k : Ema) (price : Float) : Nat → Float
  | 0 => price
  | n + 1 => k.next (k.afterFlat price n) price

theorem alike_next (k : Ema) {average average' value value' : Float}
    (averages : Alike average average') (values : Alike value value') :
    Alike (k.next average value) (k.next average' value') :=
  (values.mul_const _).add (averages.mul_const _)

theorem alike_follow (k : Ema) {price average : Float} {n : Nat} {closes : List Float}
    (averages : Alike average (k.afterFlat price n)) (flat : ∀ v ∈ closes, Alike v price) {i : Nat}
    {v : Float} (found : (k.follow average closes)[i]? = some v) :
    Alike v (k.afterFlat price (n + 1 + i)) := by
  induction closes generalizing average n i with
  | nil => cases found
  | cons close rest ih =>
      have next : Alike (k.next average close) (k.afterFlat price (n + 1)) :=
        k.alike_next averages (flat close List.mem_cons_self)
      cases i with
      | zero =>
          obtain rfl : k.next average close = v := Option.some.inj found
          exact next
      | succ i =>
          have later := ih next (fun v member => flat v (List.mem_cons_of_mem close member)) found
          rwa [Nat.add_right_comm, Nat.add_assoc (n + 1)] at later

/-- Over closes that are all one price, the averages are a sequence that depends on the price
alone. -/
theorem alike_series (k : Ema) {price : Float} {closes : List Float}
    (flat : ∀ v ∈ closes, Alike v price) {i : Nat} {v : Float}
    (found : (k.series closes)[i]? = some v) : Alike v (k.afterFlat price i) := by
  cases closes with
  | nil => cases found
  | cons close rest =>
      have first : Alike close (k.afterFlat price 0) := flat close List.mem_cons_self
      cases i with
      | zero =>
          obtain rfl : close = v := Option.some.inj found
          exact first
      | succ i =>
          have later := k.alike_follow first
            (fun v member => flat v (List.mem_cons_of_mem close member)) found
          rwa [Nat.zero_add, Nat.add_comm] at later

/-- The differences of two averages over one price are zero exactly where the averages agree. -/
theorem zero_differences_iff (fast slow : Ema) {price : Float} {closes : List Float}
    (flat : ∀ v ∈ closes, Alike v price) :
    (∀ l ∈ (fast.series closes).zipWith (· - ·) (slow.series closes), value? l = some 0) ↔
      ∀ n < closes.length, Agree (fast.afterFlat price n) (slow.afterFlat price n) := by
  have count := fast.causal_series.length_eq closes
  have count' := slow.causal_series.length_eq closes
  have place {n : Nat} (h : n < (fast.series closes).length)
      (h' : n < (slow.series closes).length) :
      level? ((fast.series closes)[n] - (slow.series closes)[n])
        = level? (fast.afterFlat price n - slow.afterFlat price n) :=
    (fast.alike_series flat (List.getElem?_eq_getElem h)).sub
      (slow.alike_series flat (List.getElem?_eq_getElem h'))
  constructor
  · intro zero n inside
    have h : n < (fast.series closes).length := count ▸ inside
    have h' : n < (slow.series closes).length := count' ▸ inside
    have bound : n < ((fast.series closes).zipWith (· - ·) (slow.series closes)).length := by
      simpa using ⟨h, h'⟩
    have line := zero _ (List.getElem_mem bound)
    rw [List.getElem_zipWith] at line
    rw [agree_iff_level?_sub, ← place h h']
    exact level?_of_value? line
  · intro agree l member
    obtain ⟨n, bound, rfl⟩ := List.getElem_of_mem member
    have inside := bound
    rw [List.length_zipWith, lt_inf_iff] at inside
    have same := agree_iff_level?_sub.mp (agree n (count ▸ inside.1))
    rw [List.getElem_zipWith]
    exact value?_zero_of_level? ((place inside.1 inside.2).trans same)

/-- An average that keeps a price over one step keeps it forever. -/
theorem alike_afterFlat (k : Ema) {price : Float} (keeps : Alike (k.next price price) price)
    (n : Nat) : Alike (k.afterFlat price n) price := by
  induction n with
  | zero => rfl
  | succ n ih => exact (k.alike_next ih rfl).trans keeps

/-- The weight of a new value and that of the old average are both between zero and one. -/
theorem weight_range (k : Ema) (word : k.period < UInt64.size) :
    (0 ≤ k.weight ∧ k.weight ≤ 1.0) ∧ 0 ≤ 1.0 - k.weight ∧ 1.0 - k.weight ≤ 1.0 := by
  have least : 1.0 ≤ Float.ofNat k.period := by
    rw [le_iff_of_level? (level?_of_value? value?_one) (level?_of_value? (value?_ofNat word))]
    exact one_le_rounded (by exact_mod_cast k.period_pos)
  have two : 2.0 ≤ Float.ofNat k.period + 1.0 :=
    le_trans (by decide : (2.0 : Float) ≤ 1.0 + 1.0) (add_const_mono (by decide) least)
  have pos : 0 < Float.ofNat k.period + 1.0 := lt_of_lt_of_le (by decide) two
  have top := le_infinity (isNaN_of_le two).2
  have low : 0 ≤ k.weight :=
    le_trans (by decide : (0 : Float) ≤ 2.0 / infinity)
      (const_div_anti (by decide) (by decide) pos top)
  have high : k.weight ≤ 1.0 :=
    le_trans (const_div_anti (by decide) (by decide) (by decide) two)
      (by decide : (2.0 / 2.0 : Float) ≤ 1.0)
  refine ⟨⟨low, high⟩, ?_, ?_⟩
  · exact le_trans (by decide : (0 : Float) ≤ 1.0 - 1.0) (const_sub_anti (by decide) high)
  · exact le_trans (const_sub_anti (by decide) low) (by decide : (1.0 - 0 : Float) ≤ 1.0)

/-- Averages of zeros are zeros. -/
theorem series_zero (k : Ema) (word : k.period < UInt64.size) {values : List Float}
    (zero : ∀ v ∈ values, value? v = some 0) : ∀ v ∈ k.series values, value? v = some 0 := by
  obtain ⟨⟨low, high⟩, low', high'⟩ := k.weight_range word
  obtain ⟨w, hw⟩ := exists_value?_of_range low high
  obtain ⟨w', hw'⟩ := exists_value?_of_range low' high'
  have averages := @Ema.forall₂_series k (fun v _ => value? v = some 0) values values
    (fun old new => value?_zero_add (value?_zero_mul new hw) (value?_zero_mul old hw'))
    (List.forall₂_same.mpr zero)
  exact List.forall₂_same.mp averages

end Ema

/-! ### The convergence -/

/-- Line, signal and histogram are zeros, of either sign. -/
structure Convergence.IsZero (m : Convergence) : Prop where
  line : (m.line == 0) = true
  signal : (m.signal == 0) = true
  histogram : (m.histogram == 0) = true

/-- All values are zero exactly where all lines are: then the signals are averages of zeros. -/
theorem Macd.isZero_valuesFrom_iff (k : Macd) (word : k.signal < UInt64.size)
    (fast slow : List Float) :
    (∀ value ∈ k.valuesFrom fast slow, ∃ m, value = some m ∧ m.IsZero) ↔
      ∀ l ∈ fast.zipWith (· - ·) slow, value? l = some 0 := by
  rw [valuesFrom]
  generalize fast.zipWith (· - ·) slow = lines
  have count := (Ema.causal_series ⟨k.signal, k.signal_pos⟩).length_eq lines
  have averages := @Ema.series_zero ⟨k.signal, k.signal_pos⟩ word lines
  generalize Ema.series ⟨k.signal, k.signal_pos⟩ lines = signals at count averages ⊢
  constructor
  · intro zero l member
    obtain ⟨i, inside, rfl⟩ := List.getElem_of_mem member
    have bound :
        i < (lines.zipWith (fun l s => some (Convergence.mk l s (l - s))) signals).length := by
      simpa [count] using inside
    obtain ⟨m, same, isZero⟩ := zero _ (List.getElem_mem bound)
    rw [List.getElem_zipWith] at same
    obtain rfl := Option.some.inj same
    exact beq_zero_iff.mp isZero.line
  · intro zero value member
    obtain ⟨i, inside, rfl⟩ := List.getElem_of_mem member
    rw [List.length_zipWith, lt_inf_iff] at inside
    have line := zero _ (List.getElem_mem inside.1)
    have signal := averages zero _ (List.getElem_mem inside.2)
    refine ⟨_, List.getElem_zipWith, beq_zero_iff.mpr line, beq_zero_iff.mpr signal, ?_⟩
    have distance := level?_sub line signal
    rw [sub_zero, stored_zero] at distance
    exact beq_zero_iff.mpr (value?_zero_of_level? distance)

end Indicator

/-! ### The rule -/

open Indicator (Convergence Ema Macd)

theorem Indicator.Convergence.IsZero.not_on {m : Convergence} (zero : m.IsZero) (d : Direction) :
    ¬ m.On d := by
  have line := level?_of_value? (beq_zero_iff.mp zero.line)
  have signal := level?_of_value? (beq_zero_iff.mp zero.signal)
  cases d with
  | buy => exact fun on => lt_irrefl 0 ((lt_iff_of_level? signal line).mp on)
  | sell => exact fun on => lt_irrefl 0 ((lt_iff_of_level? line signal).mp on)

/-- A record with a convergence that is zero. -/
def Annotated.AtRest (a : Annotated) : Prop := ∃ m, a.macd = some m ∧ m.IsZero

/-- The rule is silent on a history that is at rest. -/
theorem Rule.voteAt_of_atRest {series : List Annotated} (rest : ∀ a ∈ series, a.AtRest) (i : Nat) :
    macdCrossover.voteAt series i = none := by
  cases i with
  | zero => rfl
  | succ i =>
      simp only [voteAt]
      cases now : series[i + 1]? with
      | none => rfl
      | some a =>
          cases before : series[i]? with
          | none => rfl
          | some b =>
              obtain ⟨new, hnew, still⟩ := rest a (List.mem_of_getElem? now)
              obtain ⟨old, hold, -⟩ := rest b (List.mem_of_getElem? before)
              have buys : ¬ (old.line ≤ old.signal ∧ new.signal < new.line) := fun crossed =>
                still.not_on .buy crossed.2
              have sells : ¬ (old.signal ≤ old.line ∧ new.line < new.signal) := fun crossed =>
                still.not_on .sell crossed.2
              simp only [macdCrossover, hnew, hold, Option.bind_eq_bind, Option.bind_some,
                if_neg buys, if_neg sells, Option.bind_none]

/-! ### Flat histories -/

namespace Composer

variable (c : Composer) {bars : List Bar} {price : Float}

/-- A flat history is at rest exactly where the two averages agree. -/
theorem atRest_annotate_iff (word : c.macd.signal < UInt64.size)
    (flat : ∀ bar ∈ bars, (bar.close == price) = true) :
    (∀ a ∈ c.annotate bars, a.AtRest) ↔
      ∀ n < bars.length, Agree (c.emaFast.afterFlat price n) (c.emaSlow.afterFlat price n) := by
  have closes : ∀ v ∈ bars.map (·.close), Alike v price := by
    intro v member
    obtain ⟨bar, among, rfl⟩ := List.mem_map.mp member
    exact alike_of_beq (flat bar among)
  have lines := c.emaFast.zero_differences_iff c.emaSlow closes
  rw [List.length_map] at lines
  rw [← lines, ← c.macd.isZero_valuesFrom_iff word, ← annotate_macd, List.forall_mem_map]
  rfl

/-- Two averages that keep a finite price agree forever. -/
theorem agree_afterFlat (finite : price.isFinite = true)
    (fast : (c.emaFast.next price price == price) = true)
    (slow : (c.emaSlow.next price price == price) = true) (n : Nat) :
    Agree (c.emaFast.afterFlat price n) (c.emaSlow.afterFlat price n) := by
  have kept := c.emaFast.alike_afterFlat (alike_of_beq fast) n
  have kept' := c.emaSlow.alike_afterFlat (alike_of_beq slow) n
  obtain ⟨v, hv⟩ := exists_value? finite
  have place := level?_of_value? hv
  have same : Agree price price := ⟨finite, beq_iff_level?.mpr ⟨v, place, place⟩⟩
  rw [agree_iff_level?_sub] at same ⊢
  exact (kept.sub kept').trans same

end Composer

/-- A flat market is at rest as long as its averages agree. Where all closes are one finite price,
the line, the signal and the histogram of every record are zero exactly where the two averages of
that price are the same finite number from bar to bar. The crossover rule fires nowhere then. So it
is in particular where each of the two averages keeps the price over one step. -/
theorem flat_market_rests_iff {s : IndicatorSettings} (valid : s.fault? = none) {price : Float}
    (finite : price.isFinite = true) :
    ∃ c, Composer.make s = .ok c ∧
      ∀ bars : List Bar, (∀ bar ∈ bars, (bar.close == price) = true) →
        ((∀ a ∈ c.annotate bars, a.AtRest) ↔ ∀ n < bars.length,
          Agree (c.emaFast.afterFlat price n) (c.emaSlow.afterFlat price n)) ∧
        ((∀ a ∈ c.annotate bars, a.AtRest) →
          ∀ i, Rule.macdCrossover.voteAt (c.annotate bars) i = none) ∧
        ((c.emaFast.next price price == price) = true →
          (c.emaSlow.next price price == price) = true → ∀ a ∈ c.annotate bars, a.AtRest) := by
  refine ⟨_, Composer.make_eq_ok_iff.mpr ⟨valid, rfl⟩, fun bars flat => ?_⟩
  have word : (Composer.ofFaultless s valid).macd.signal < UInt64.size := s.macdSignal.toNat_lt
  generalize Composer.ofFaultless s valid = c at word
  have rests := c.atRest_annotate_iff word flat
  refine ⟨rests, Rule.voteAt_of_atRest, fun fast slow => ?_⟩
  exact rests.mpr fun n _ => c.agree_afterFlat finite fast slow n

/-- The standard averages keep the price 100. -/
theorem flat_market_rests_iff_hundred :
    let bars : List Bar := [100, 100, 100].map fun p => ⟨.unix 0, p, p, p, p, none⟩
    ∃ c, Composer.make {} = .ok c ∧ (∀ a ∈ c.annotate bars, a.AtRest) ∧
      ∀ i, Rule.macdCrossover.voteAt (c.annotate bars) i = none := by
  intro bars
  obtain ⟨c, made, runs⟩ :=
    @flat_market_rests_iff {} IndicatorSettings.fault?_default 100 (by decide)
  obtain ⟨-, silent, kept⟩ := runs bars (by decide)
  obtain ⟨_, rfl⟩ := Composer.make_eq_ok_iff.mp made
  have fast : (Composer.standard.emaFast.next 100 100 == 100) = true := by decide +kernel
  have slow : (Composer.standard.emaSlow.next 100 100 == 100) = true := by decide +kernel
  have rest := kept fast slow
  exact ⟨_, made, rest, silent rest⟩

/-- The standard averages of the price 0.23 do not agree: after one more close the fast one is the
next double above the price, and the rule votes to buy. -/
theorem flat_market_crosses :
    let bars : List Bar := [0.23, 0.23].map fun p => ⟨.unix 0, p, p, p, p, none⟩
    (∀ bar ∈ bars, (bar.close == 0.23) = true) ∧
      (¬ ∀ a ∈ Composer.standard.annotate bars, a.AtRest) ∧
      Rule.macdCrossover.voteAt (Composer.standard.annotate bars) 1 = some .buy := by
  intro bars
  have buys : Rule.macdCrossover.voteAt (Composer.standard.annotate bars) 1 = some .buy := by
    decide +kernel
  refine ⟨by decide, fun rest => ?_, buys⟩
  rw [Rule.voteAt_of_atRest rest] at buys
  cases buys

end PriceSignals
