/-
Module: PriceSignals.Proofs.Tally
Purpose: Verdicts counted in whole numbers. Where all strengths are whole numbers from 0 to 100,
  rounding neither makes nor hides a difference, and the verdict is the one that whole numbers give.
Main exports:
  Hit.IsWhole, Hit.points, Verdict.points, Verdict.share, Verdict.le_share_iff, Verdict.tallied,
  Binary64.rounded_lt_iff, score_eq, score_of_hasValue, Series.hasValue_total,
  Verdict.ofHits_eq_tallied_of_le, Verdict.ofHits_eq_tallied
-/
import PriceSignals.Proofs.FloatOperations
import PriceSignals.Proofs.Justification

namespace PriceSignals

open Binary64 (HasValue rounded)

/-! ### Counting in whole numbers -/

/-- A vote whose strength is a whole number from 0 to 100. -/
def Hit.IsWhole (hit : Hit) : Prop := ∃ n ≤ 100, (hit.strength == Float.ofNat n) = true

/-- The strength of a vote as a whole number. -/
def Hit.points (hit : Hit) : Nat := (score hit.strength).toNat

namespace Verdict

/-- The points of one direction. -/
def points (hits : List Hit) (d : Direction) : Nat := ((side hits d).map (·.points)).sum

/-- How many points there are for each vote, a half going up. -/
def share (points votes : Nat) : Nat := (2 * points + votes) / (2 * votes)

/-- A share reaches a whole number where the points reach the middle below it. -/
theorem le_share_iff {k points votes : Nat} (voted : 0 < votes) :
    k ≤ share points votes ↔ 2 * (k * votes) ≤ 2 * points + votes := by
  rw [share, Nat.le_div_iff_mul_le (Nat.mul_pos two_pos voted), Nat.mul_left_comm]

/-- Votes of `k` points at least have a share of `k` at least. -/
theorem le_share {k points votes : Nat} (voted : 0 < votes) (least : k * votes ≤ points) :
    k ≤ share points votes := by
  rw [le_share_iff voted]
  omega

/-- Votes of `k` points at most have a share of `k` at most. -/
theorem share_le {k points votes : Nat} (voted : 0 < votes) (most : points ≤ k * votes) :
    share points votes ≤ k := by
  by_contra more
  have reached := (le_share_iff voted).mp (Nat.lt_of_not_le more)
  rw [Nat.succ_eq_add_one, add_one_mul] at reached
  omega

/-- The verdict for a direction, its strength being its points for each vote. -/
def awarded (hits : List Hit) (d : Direction) : Verdict :=
  { stance := d.stance
    strength := UInt8.ofNat (share (points hits d) hits.length)
    reasons := (side hits d).map (·.reason) }

/-- The verdict from some votes, counted in whole numbers. -/
def tallied (hits : List Hit) : Verdict :=
  if hits.isEmpty then neutral 0 "No clear signals"
  else if points hits .sell < points hits .buy then awarded hits .buy
  else if points hits .buy < points hits .sell then awarded hits .sell
  else neutral 50 "Mixed signals"

end Verdict

/-! ### Quotients of whole numbers -/

namespace Binary64

/-- Different quotients by one divisor are not closer than its reciprocal. -/
theorem add_le_div_of_lt {a b n : Nat} (less : a < b) (pos : 0 < n) (few : n ≤ 2 ^ 33) :
    (a : ℚ) / n + 1 / 2 ^ 33 ≤ b / n := by
  have divisor : (0 : ℚ) < n := by exact_mod_cast pos
  have few : (n : ℚ) ≤ 2 ^ 33 := by exact_mod_cast few
  have next : (a : ℚ) + 1 ≤ b := by exact_mod_cast less
  calc (a : ℚ) / n + 1 / 2 ^ 33 ≤ a / n + 1 / n := by
        linarith [one_div_le_one_div_of_le divisor few]
    _ = (a + 1) / n := (add_div _ _ _).symm
    _ ≤ b / n := div_le_div_of_nonneg_right next divisor.le

/-- A number up to 100 has at least 46 places behind the point. -/
theorem abs_rounded_sub_le_of_le {v : ℚ} (nonneg : 0 ≤ v) (most : v ≤ 100) :
    |rounded v - v| ≤ 1 / 2 ^ 47 := by
  rcases eq_or_lt_of_le nonneg with rfl | pos
  · rw [rounded_zero]
    norm_num
  · have log : Int.log 2 v < 7 := by
      rw [← Int.lt_zpow_iff_log_lt (by norm_num) pos]
      norm_num
      linarith
    have place : lastPlace v ≤ -46 := by
      unfold lastPlace
      omega
    calc |rounded v - v| ≤ 2 ^ lastPlace v / 2 := abs_rounded_sub_le nonneg
      _ ≤ 2 ^ (-46 : Int) / 2 := by
          apply div_le_div_of_nonneg_right _ (by norm_num)
          exact zpow_le_zpow_right₀ (by norm_num) place
      _ = 1 / 2 ^ 47 := by norm_num

theorem div_le_hundred {a n : Nat} (pos : 0 < n) (most : a ≤ 100 * n) : (a : ℚ) / n ≤ 100 := by
  have divisor : (0 : ℚ) < n := by exact_mod_cast pos
  rw [div_le_iff₀ divisor]
  exact_mod_cast most

/-- Rounding two quotients by one divisor neither makes nor hides a difference between them. -/
theorem rounded_lt_iff {a b n : Nat} (pos : 0 < n) (few : n ≤ 2 ^ 32) (ha : a ≤ 100 * n)
    (hb : b ≤ 100 * n) : rounded (a / n) < rounded (b / n) ↔ a < b := by
  have apart {c d : Nat} (hc : c ≤ 100 * n) (hd : d ≤ 100 * n) (less : c < d) :
      rounded (c / n) < rounded (d / n) := by
    have gap := add_le_div_of_lt less pos (by omega)
    have near_c := abs_rounded_sub_le_of_le (by positivity) (div_le_hundred pos hc)
    have near_d := abs_rounded_sub_le_of_le (by positivity) (div_le_hundred pos hd)
    rw [abs_le] at near_c near_d
    norm_num at gap near_c near_d
    linarith [near_c.2, near_d.1]
  constructor
  · intro less
    by_contra upto
    rcases Nat.lt_or_eq_of_le (Nat.le_of_not_lt upto) with more | rfl
    · exact lt_asymm less (apart hb ha more)
    · exact lt_irrefl _ less
  · exact apart ha hb

/-- Neither does it move a quotient across the middle between two whole numbers. -/
theorem middle_le_rounded_iff {a n k : Nat} (pos : 0 < n) (few : n ≤ 2 ^ 32) (ha : a ≤ 100 * n)
    (hk : k < 100) : (k : ℚ) + 1 / 2 ≤ rounded (a / n) ↔ (2 * k + 1) * n ≤ 2 * a := by
  have divisor : (n : ℚ) ≠ 0 := by exact_mod_cast pos.ne'
  have near := abs_rounded_sub_le_of_le (by positivity) (div_le_hundred pos ha)
  have middle : (k : ℚ) + 1 / 2 = ((2 * k + 1) * n : Nat) / (2 * n : Nat) := by
    push_cast
    field_simp
  have quotient : (a : ℚ) / n = (2 * a : Nat) / (2 * n : Nat) := by
    push_cast
    rw [mul_div_mul_left _ _ two_ne_zero]
  rw [abs_le] at near
  rcases Nat.lt_trichotomy ((2 * k + 1) * n) (2 * a) with below | same | above
  · have gap := add_le_div_of_lt below (n := 2 * n) (by omega) (by omega)
    rw [← middle, ← quotient] at gap
    norm_num at gap near
    apply iff_of_true _ below.le
    linarith [near.1]
  · have exact : (a : ℚ) / n = (2 * k + 1 : Nat) / 2 := by
      rw [quotient, ← same, ← middle]
      push_cast
      ring
    rw [exact, rounded_of_isDouble (isDouble_half (by omega))]
    apply iff_of_true _ same.le
    push_cast
    linarith
  · have gap := add_le_div_of_lt above (n := 2 * n) (by omega) (by omega)
    rw [← middle, ← quotient] at gap
    norm_num at gap near
    apply iff_of_false _ (Nat.not_le_of_lt above)
    intro upto
    linarith [near.2]

end Binary64

/-! ### Scores -/

theorem hasValue_half : HasValue 0.5 (1 / 2) := by
  have form : (0.5 : Float).toModel.unpack = .finite .positive (2 ^ 52) (-53) (by decide) := rfl
  exact .of_form form (by norm_num)

/-- The steps of the score are where they are meant to be. -/
theorem hasValue_step {k : Nat} (hk : k < 100) : HasValue (Float.ofNat k + 0.5) (k + 1 / 2) := by
  have bound : (k : ℚ) < 100 := by exact_mod_cast hk
  have inRange : Binary64.InRange ((k : ℚ) + 1 / 2) := by
    apply Binary64.inRange_of_le
    norm_num
    linarith
  have sum := (Binary64.hasValue_ofNat (show k < 2 ^ 53 by omega)).add hasValue_half inRange
  have halves : (k : ℚ) + 1 / 2 = (2 * k + 1 : Nat) / 2 := by
    push_cast
    ring
  have exact : Binary64.IsDouble ((k : ℚ) + 1 / 2) := by
    rw [halves]
    exact Binary64.isDouble_half (by omega)
  rwa [Binary64.rounded_of_isDouble exact] at sum

theorem countP_lt_range (c size : Nat) :
    ((List.range size).countP fun k => decide (k < c)) = min c size := by
  induction size with
  | zero => simp
  | succ size ih =>
      rw [List.range_succ, List.countP_append, ih, List.countP_singleton]
      split
      · simp_all
        omega
      · simp_all
        omega

/-- The score of a rounded quotient is the quotient, a half going up. -/
theorem score_eq {x : Float} {a n : Nat} (h : HasValue x (rounded (a / n))) (pos : 0 < n)
    (few : n ≤ 2 ^ 32) (most : a ≤ 100 * n) : score x = UInt8.ofNat (Verdict.share a n) := by
  have steps : ∀ k ∈ List.range 100,
      decide (Float.ofNat k + 0.5 ≤ x) = true ↔ decide (k < Verdict.share a n) = true := by
    intro k member
    have hk : k < 100 := List.mem_range.mp member
    rw [decide_eq_true_iff, decide_eq_true_iff, (hasValue_step hk).le_iff h,
      Binary64.middle_le_rounded_iff pos few most hk, Nat.lt_iff_add_one_le,
      Verdict.le_share_iff pos, add_one_mul, add_one_mul, Nat.mul_assoc]
    omega
  rw [score, List.countP_congr steps, countP_lt_range, Nat.min_eq_left (Verdict.share_le pos most)]

/-- The score of a whole number is that number. -/
theorem score_of_hasValue {x : Float} {n : Nat} (h : HasValue x n) (most : n ≤ 100) :
    score x = UInt8.ofNat n := by
  have whole : HasValue x (rounded (n / (1 : Nat))) := by
    rw [Nat.cast_one, div_one, Binary64.rounded_of_isDouble (Binary64.isDouble_natCast (by omega))]
    exact h
  have one : Verdict.share n 1 = n := by
    unfold Verdict.share
    omega
  rw [score_eq whole Nat.one_pos (by norm_num) (by omega), one]

/-! ### Votes -/

/-- A rule has one vote at most. -/
theorem length_votes_le (rules : List Rule) (current previous : Annotated) :
    (votes rules current previous).length ≤ rules.length := by
  unfold votes firedOn
  rw [List.length_map]
  exact List.length_filterMap_le _ _

namespace Hit

variable {hit : Hit}

/-- The points of a vote are the number that its strength equals. -/
theorem points_eq {n : Nat} (equal : (hit.strength == Float.ofNat n) = true) (most : n ≤ 100) :
    hit.points = n := by
  have value := (Binary64.hasValue_ofNat (show n < 2 ^ 53 by omega)).of_beq equal
  rw [points, score_of_hasValue value most, UInt8.toNat_ofNat']
  omega

theorem IsWhole.hasValue (h : hit.IsWhole) : HasValue hit.strength hit.points := by
  rcases h with ⟨n, most, equal⟩
  rw [points_eq equal most]
  exact (Binary64.hasValue_ofNat (by omega)).of_beq equal

theorem IsWhole.points_le (h : hit.IsWhole) : hit.points ≤ 100 := by
  rcases h with ⟨n, most, equal⟩
  rw [points_eq equal most]
  exact most

end Hit

namespace Series

variable {α : Type} {f : α → Float} {g : α → Nat} {xs : List α}

/-- A running sum of whole numbers is exact while it is short. -/
theorem hasValue_foldl (values : ∀ x ∈ xs, HasValue (f x) (g x)) {acc : Float} {n : Nat}
    (start : HasValue acc n) (short : n + (xs.map g).sum < 2 ^ 53) :
    HasValue ((xs.map f).foldl (· + ·) acc) (n + (xs.map g).sum : Nat) := by
  induction xs generalizing acc n with
  | nil => exact start
  | cons x xs ih =>
      have sums : n + ((x :: xs).map g).sum = n + g x + (xs.map g).sum := by
        rw [List.map_cons, List.sum_cons, Nat.add_assoc]
      rw [sums] at short ⊢
      have exact : (n : ℚ) + g x = (n + g x : Nat) := (Nat.cast_add n (g x)).symm
      have inRange : Binary64.InRange ((n : ℚ) + g x) := by
        apply Binary64.inRange_of_le
        rw [exact]
        exact_mod_cast (show n + g x ≤ 2 ^ 53 by omega)
      have sum := start.add (values x List.mem_cons_self) inRange
      rw [exact, Binary64.rounded_of_isDouble (Binary64.isDouble_natCast (by omega))] at sum
      apply ih _ sum short
      intro y member
      exact values y (List.mem_cons_of_mem x member)

theorem hasValue_total (values : ∀ x ∈ xs, HasValue (f x) (g x))
    (short : (xs.map g).sum < 2 ^ 53) : HasValue (total (xs.map f)) (xs.map g).sum := by
  have none : HasValue (-0.0) (0 : Nat) := by
    rw [Nat.cast_zero]
    exact .zero .negative rfl
  have sum := hasValue_foldl values none (by omega)
  rwa [Nat.zero_add] at sum

end Series

namespace Verdict

variable {hits : List Hit}

theorem length_side_le (hits : List Hit) (d : Direction) : (side hits d).length ≤ hits.length :=
  List.length_filter_le _ _

theorem points_le (whole : ∀ hit ∈ hits, hit.IsWhole) (d : Direction) :
    points hits d ≤ 100 * hits.length := by
  have each : ∀ p ∈ (side hits d).map (·.points), p ≤ 100 := by
    intro p member
    rcases List.mem_map.mp member with ⟨hit, voted, rfl⟩
    exact (whole hit (mem_side.mp voted).1).points_le
  have most := List.sum_le_card_nsmul _ 100 each
  have fewer := length_side_le hits d
  rw [List.length_map, smul_eq_mul] at most
  unfold points
  omega

/-- The weight of a direction is its points over the number of votes, rounded once. -/
theorem hasValue_weight (whole : ∀ hit ∈ hits, hit.IsWhole) (few : hits.length ≤ 2 ^ 32)
    (voted : 0 < hits.length) (d : Direction) :
    HasValue (weight hits d) (rounded (points hits d / hits.length)) := by
  have most := points_le whole d
  have total : HasValue (Series.total ((side hits d).map (·.strength))) (points hits d) := by
    apply Series.hasValue_total
    · intro hit member
      exact (whole hit (mem_side.mp member).1).hasValue
    · change points hits d < 2 ^ 53
      omega
  have count : HasValue (Float.ofNat hits.length) hits.length :=
    Binary64.hasValue_ofNat (by omega)
  apply total.div count (by exact_mod_cast voted)
  apply Binary64.inRange_of_le
  linarith [Binary64.div_le_hundred voted most]

/-- Directions weigh as their points say. -/
theorem weight_lt_iff (whole : ∀ hit ∈ hits, hit.IsWhole) (few : hits.length ≤ 2 ^ 32)
    (voted : 0 < hits.length) (d e : Direction) :
    weight hits d < weight hits e ↔ points hits d < points hits e := by
  rw [(hasValue_weight whole few voted d).lt_iff (hasValue_weight whole few voted e)]
  exact Binary64.rounded_lt_iff voted few (points_le whole d) (points_le whole e)

theorem decided_eq_awarded (whole : ∀ hit ∈ hits, hit.IsWhole) (few : hits.length ≤ 2 ^ 32)
    (voted : 0 < hits.length) (d : Direction) : decided hits d = awarded hits d := by
  have strength := score_eq (hasValue_weight whole few voted d) voted few (points_le whole d)
  rw [decided, awarded, strength]

/-- With whole strengths the verdict is the one that whole numbers give. -/
theorem ofHits_eq_tallied_of_le (whole : ∀ hit ∈ hits, hit.IsWhole) (few : hits.length ≤ 2 ^ 32) :
    ofHits hits = tallied hits := by
  unfold ofHits tallied
  by_cases none : hits.isEmpty = true
  · rw [if_pos none, if_pos none]
  · have voted : 0 < hits.length := by
      rwa [List.length_pos_iff, ne_eq, ← List.isEmpty_iff]
    rw [if_neg none, if_neg none]
    simp only [weight_lt_iff whole few voted, decided_eq_awarded whole few voted]

theorem ofHits_eq_tallied (whole : ∀ hit ∈ hits, hit.IsWhole) (few : hits.length < 2 ^ 32) :
    ofHits hits = tallied hits :=
  ofHits_eq_tallied_of_le whole few.le

end Verdict

end PriceSignals
