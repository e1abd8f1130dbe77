/-
Module: PriceSignals.Proofs.FloatRounding
Purpose: Rounding to doubles. What the rounding of a mantissa with its residual bits gives is the
  double nearest to the exact number, and every number closer to a double than half way to its
  neighbours is rounded to it.
Main exports:
  Binary64.roundEven, Binary64.Represents, Binary64.lastPlace, Binary64.nearest,
  Binary64.roundWithAccuracy_eq, Binary64.nearest_eq, Binary64.nearest_self
-/
import PriceSignals.Proofs.FloatForm

namespace PriceSignals.Binary64

open Float.Model Float.Model.UnpackedFloat

/-! ### Rounding to whole numbers -/

/-- The whole number nearest to a number that is not below zero; of two, the even one. -/
def roundEven (y : ℚ) : Nat :=
  let floor := ⌊y⌋₊
  if y < floor + 1 / 2 then floor
  else if floor + 1 / 2 < y then floor + 1
  else floor + floor % 2

/-- A number less than half a step from a whole number is rounded to it, and from half a step if
that is even. -/
theorem roundEven_eq {y : ℚ} {m : Nat} (lower : (m : ℚ) - 1 / 2 ≤ y) (upper : y ≤ m + 1 / 2)
    (tie : m % 2 = 1 → (m : ℚ) - 1 / 2 < y ∧ y < m + 1 / 2) : roundEven y = m := by
  obtain above | under := le_or_gt (m : ℚ) y
  · have floor : ⌊y⌋₊ = m :=
      (Nat.floor_eq_iff (le_trans (Nat.cast_nonneg m) above)).mpr ⟨above, by linarith⟩
    rw [roundEven, floor]
    obtain near | middle := lt_or_eq_of_le upper
    · rw [if_pos near]
    · have even : m % 2 = 0 := by
        by_contra odd
        exact absurd (tie (by omega)).2 (not_lt_of_ge middle.ge)
      rw [if_neg (by linarith), if_neg (by linarith), even, Nat.add_zero]
  · obtain _ | n := m
    · have floor : ⌊y⌋₊ = 0 := Nat.floor_of_nonpos (by exact_mod_cast under.le)
      rw [roundEven, floor, if_pos (by push_cast at under ⊢; linarith)]
    · have floor : ⌊y⌋₊ = n := by
        push_cast at lower under
        exact (Nat.floor_eq_iff (by linarith [Nat.cast_nonneg (α := ℚ) n])).mpr
          ⟨by linarith, by linarith⟩
      rw [roundEven, floor]
      push_cast at lower under tie
      obtain near | middle := lt_or_eq_of_le lower
      · rw [if_neg (by linarith), if_pos (by linarith)]
      · have odd : n % 2 = 1 := by
          by_contra even
          exact absurd (tie (by omega)).1 (not_lt_of_ge middle.ge)
        rw [if_neg (by linarith), if_neg (by linarith), odd]

/-! ### Mantissas with residual bits -/

/-- What a mantissa and its residual bits say about a number: its whole part, and where it is in
relation to the middle between that and the next whole number. -/
def Represents (em : ExtendedMantissa) (y : ℚ) : Prop :=
  match em.roundBit, em.stickyBit with
  | false, false => y = em.mantissa
  | false, true => em.mantissa < y ∧ y < em.mantissa + 1 / 2
  | true, false => y = em.mantissa + 1 / 2
  | true, true => em.mantissa + 1 / 2 < y ∧ y < em.mantissa + 1

theorem Represents.floor {em : ExtendedMantissa} {y : ℚ} (h : Represents em y) :
    ⌊y⌋₊ = em.mantissa := by
  have bounds : (em.mantissa : ℚ) ≤ y ∧ y < em.mantissa + 1 := by
    obtain ⟨m, round, sticky⟩ := em
    cases round <;> cases sticky <;> simp only [Represents] at h ⊢ <;> constructor <;> linarith
  exact (Nat.floor_eq_iff (le_trans (Nat.cast_nonneg _) bounds.1)).mpr bounds

/-- Rounding by the residual bits is rounding the number. -/
theorem Represents.roundedMantissa {em : ExtendedMantissa} {y : ℚ} (h : Represents em y) :
    em.roundedMantissa = roundEven y := by
  rw [roundEven, h.floor]
  obtain ⟨m, round, sticky⟩ := em
  cases round <;> cases sticky <;>
    simp only [Represents, ExtendedMantissa.roundedMantissa, ExtendedMantissa.accuracy,
      Accuracy.roundToNearestEven] at h ⊢
  · rw [if_pos (by linarith)]
  · rw [if_pos (by linarith)]
  · rw [if_neg (by linarith), if_neg (by linarith)]
  · rw [if_neg (by linarith), if_pos (by linarith)]

/-- One place fewer halves the number. -/
theorem Represents.shiftRightOne {em : ExtendedMantissa} {y : ℚ} (h : Represents em y) :
    Represents em.shiftRightOne (y / 2) := by
  obtain ⟨m, round, sticky⟩ := em
  have parts : ((m / 2 : Nat) : ℚ) * 2 + ((m % 2 : Nat) : ℚ) = m := by
    exact_mod_cast Nat.div_add_mod' m 2
  obtain even | odd := Nat.mod_two_eq_zero_or_one m
  · rw [even] at parts
    cases round <;> cases sticky <;>
      simp [Represents, ExtendedMantissa.shiftRightOne, even] at h parts ⊢ <;>
      first | linarith | (constructor <;> linarith)
  · rw [odd] at parts
    cases round <;> cases sticky <;>
      simp [Represents, ExtendedMantissa.shiftRightOne, odd] at h parts ⊢ <;>
      first | linarith | (constructor <;> linarith)

theorem Represents.shiftRight {em : ExtendedMantissa} {y : ℚ} (h : Represents em y) (n : Nat) :
    Represents (em >>> n) (y / 2 ^ n) := by
  change Represents (n.repeat ExtendedMantissa.shiftRightOne em) (y / 2 ^ n)
  induction n with
  | zero => simpa [Nat.repeat] using h
  | succ n ih =>
      have shifted := ih.shiftRightOne
      rwa [div_div, ← pow_succ] at shifted

/-! ### The place to which a number is rounded -/

/-- The exponent that the double nearest to a positive number has: 53 bits, unless that takes it
below the least exponent. -/
def lastPlace (v : ℚ) : Int := max (Int.log 2 v - 52) (-1074)

theorem pow_toNat (a : ℚ) {k : Int} (h : 0 ≤ k) : a ^ k.toNat = a ^ k := by
  rw [← zpow_natCast, Int.toNat_of_nonneg h]

theorem zpow_add_two (a b : Int) : (2 : ℚ) ^ (a + b) = 2 ^ a * 2 ^ b := zpow_add₀ (by norm_num) a b

/-- Numbers with 53 bits above a place are rounded to it, and numbers with fewer bits if it is the
least place. -/
theorem lastPlace_eq {v : ℚ} {q : Int} (pos : 0 < v) (least : -1074 ≤ q)
    (upper : v < 2 ^ (q + 53)) (lower : q = -1074 ∨ 2 ^ (q + 52) ≤ v) : lastPlace v = q := by
  have below : Int.log 2 v < q + 53 := by
    rw [← Int.lt_zpow_iff_log_lt (by norm_num) pos]
    exact_mod_cast upper
  have above : q = -1074 ∨ q + 52 ≤ Int.log 2 v := by
    rw [← Int.zpow_le_iff_le_log (by norm_num) pos]
    exact_mod_cast lower
  unfold lastPlace
  omega

theorem targetExponent_eq (total : Int) :
    Format.binary64.targetExponent total = max (total - 53) (-1074) := rfl

theorem log2_bounds (m : Nat) : m < 2 ^ (m.log2 + 1) ∧ (0 < m → 2 ^ m.log2 ≤ m) :=
  ⟨Nat.lt_log2_self, fun pos => Nat.log2_self_le (Nat.ne_of_gt pos)⟩

/-- The place that a mantissa asks for is that of the number it stands for. Only where the exponent
is as small as it may be can there be no mantissa at all. -/
theorem targetExponent_eq_lastPlace {m : Nat} {e : Int} {y : ℚ} (floor : ⌊y⌋₊ = m) (pos : 0 < y)
    (enough : 0 < m ∨ e ≤ -1074) :
    Format.binary64.targetExponent (totalExponent m e) = lastPlace (y * 2 ^ e) := by
  have unit : (0 : ℚ) < 2 ^ e := zpow_pos (by norm_num) e
  obtain ⟨bits, full⟩ := log2_bounds m
  obtain ⟨low, high⟩ := (Nat.floor_eq_iff pos.le).mp floor
  rw [targetExponent_eq, totalExponent]
  symm
  refine lastPlace_eq (mul_pos pos unit) (le_max_right _ _) ?_ ?_
  · have short : (m : ℚ) + 1 ≤ 2 ^ ((m.log2 : Int) + 1) := by exact_mod_cast bits
    calc y * 2 ^ e < 2 ^ ((m.log2 : Int) + 1) * 2 ^ e := by
          exact mul_lt_mul_of_pos_right (high.trans_le short) unit
      _ = 2 ^ ((m.log2 : Int) + 1 + e) := (zpow_add_two _ _).symm
      _ ≤ _ := zpow_le_zpow_right₀ (by norm_num) (by omega)
  · by_cases least : (m.log2 : Int) + 1 + e - 53 ≤ -1074
    · exact .inl (max_eq_right least)
    · right
      have some_bits : 0 < m := by
        by_contra zero
        obtain rfl : m = 0 := Nat.eq_zero_of_not_pos zero
        have small := enough.resolve_left zero
        rw [show Nat.log2 0 = 0 by decide] at least
        omega
      have long : (2 : ℚ) ^ (m.log2 : Int) ≤ m := by exact_mod_cast full some_bits
      calc (2 : ℚ) ^ (max ((m.log2 : Int) + 1 + e - 53) (-1074) + 52)
          = 2 ^ ((m.log2 : Int) + e) := by congr 1; omega
        _ = 2 ^ (m.log2 : Int) * 2 ^ e := zpow_add_two _ _
        _ ≤ y * 2 ^ e := mul_le_mul_of_nonneg_right (long.trans low) unit.le

/-- A number with a sign, a mantissa and an exponent; without a mantissa it is zero. -/
def withMantissa (s : Sign) (m : Nat) (q : Int) : UnpackedFloat :=
  if h : m = 0 then .zero s else .finite s m q (Nat.pos_of_ne_zero h)

/-- The number with a sign that is nearest to a positive number, the even one of two. A mantissa
that has been rounded up to 54 bits is written with one bit less. -/
def nearest (s : Sign) (v : ℚ) : UnpackedFloat :=
  let m := roundEven (v / 2 ^ lastPlace v)
  if m = 2 ^ 53 then withMantissa s (2 ^ 52) (lastPlace v + 1) else withMantissa s m (lastPlace v)

/-- A positive number has at most 53 bits above its place. -/
theorem lt_of_lastPlace (v : ℚ) : v < 2 ^ (lastPlace v + 53) := by
  have bits : v < 2 ^ (Int.log 2 v + 1) := by
    exact_mod_cast Int.lt_zpow_succ_log_self (b := 2) (by norm_num) v
  refine bits.trans_le (zpow_le_zpow_right₀ (by norm_num) ?_)
  unfold lastPlace
  omega

theorem roundEven_le {y : ℚ} {m : Nat} (nonneg : 0 ≤ y) (h : y ≤ m) : roundEven y ≤ m := by
  have low : (⌊y⌋₊ : ℚ) ≤ y := Nat.floor_le nonneg
  have floor : ⌊y⌋₊ ≤ m := by exact_mod_cast low.trans h
  unfold roundEven
  dsimp only
  obtain less | rfl := Nat.lt_or_eq_of_le floor
  · split
    · omega
    · split <;> omega
  · rw [if_pos (by linarith)]

/-- At its last place a number is rounded to 53 bits, or up to the power of two behind them. -/
theorem roundEven_lastPlace_le {v : ℚ} (nonneg : 0 ≤ v) :
    roundEven (v / 2 ^ lastPlace v) ≤ 2 ^ 53 := by
  have unit : (0 : ℚ) < 2 ^ lastPlace v := zpow_pos (by norm_num) _
  apply roundEven_le (div_nonneg nonneg unit.le)
  have below := lt_of_lastPlace v
  rw [add_comm, zpow_add_two] at below
  rw [div_le_iff₀ unit]
  exact_mod_cast below.le

/-- A mantissa of at most 53 bits stays where it is, and 54 bits are made 53. -/
theorem shiftToTargetExponent_exact {m : Nat} {q : Int} (most : m ≤ 2 ^ 53) (least : -1074 ≤ q) :
    (shiftToTargetExponent Format.binary64 m q .exact).1.mantissa
        = (if m = 2 ^ 53 then 2 ^ 52 else m) ∧
      (shiftToTargetExponent Format.binary64 m q .exact).2 = if m = 2 ^ 53 then q + 1 else q := by
  unfold shiftToTargetExponent shiftToExponent
  dsimp only
  rw [targetExponent_eq, totalExponent]
  by_cases long : m = 2 ^ 53
  · subst long
    have bits : (2 ^ 53).log2 = 53 := by decide
    have place : max (((2 ^ 53).log2 : Int) + 1 + q - 53) (-1074) = q + 1 := by
      rw [bits]
      omega
    have one : (q + 1 - q).toNat = 1 := by omega
    rw [place, one, if_pos rfl, if_pos rfl]
    exact ⟨rfl, rfl⟩
  · have bits : m.log2 < 53 := by
      by_cases zero : m = 0
      · subst zero
        decide
      · exact (Nat.log2_lt zero).mpr (Nat.lt_of_le_of_ne most long)
    have stays : (max ((m.log2 : Int) + 1 + q - 53) (-1074) - q).toNat = 0 := by omega
    rw [stays, if_neg long, if_neg long]
    exact ⟨rfl, Int.add_zero q⟩

/-- Rounding a mantissa whose residual bits are known is rounding the number it stands for. -/
theorem roundWithAccuracy_eq {s : Sign} {m : Nat} {e : Int} {accuracy : Accuracy} {y : ℚ}
    (h : Represents (ExtendedMantissa.ofMantissaAndAccuracy m accuracy) y) (pos : 0 < y)
    (enough : 0 < m ∨ e ≤ -1074) (fine : e ≤ lastPlace (y * 2 ^ e)) :
    roundWithAccuracy Format.binary64 s m e accuracy = nearest s (y * 2 ^ e) := by
  have floor : ⌊y⌋₊ = m := by
    rw [h.floor]
    cases accuracy with
    | exact => rfl
    | inexact o => cases o <;> rfl
  have target := targetExponent_eq_lastPlace floor pos enough
  have least : -1074 ≤ lastPlace (y * 2 ^ e) := le_max_right _ _
  have unit : (0 : ℚ) < 2 ^ e := zpow_pos (by norm_num) e
  have place : (0 : ℚ) < 2 ^ lastPlace (y * 2 ^ e) := zpow_pos (by norm_num) _
  have most := roundEven_lastPlace_le (mul_pos pos unit).le
  have atPlace : y / 2 ^ (lastPlace (y * 2 ^ e) - e).toNat
      = y * 2 ^ e / 2 ^ lastPlace (y * 2 ^ e) := by
    have shift : (2 : ℚ) ^ (lastPlace (y * 2 ^ e) - e).toNat * 2 ^ e
        = 2 ^ lastPlace (y * 2 ^ e) := by
      rw [← zpow_natCast, ← zpow_add_two]
      congr 1
      omega
    rw [div_eq_div_iff (by positivity) place.ne', ← shift]
    ring
  have rounded := (h.shiftRight (lastPlace (y * 2 ^ e) - e).toNat).roundedMantissa
  rw [atPlace] at rounded
  obtain ⟨mantissa, exponent⟩ := shiftToTargetExponent_exact most least
  have first : shiftToTargetExponent Format.binary64 m e accuracy
      = (ExtendedMantissa.ofMantissaAndAccuracy m accuracy >>> (lastPlace (y * 2 ^ e) - e).toNat,
        lastPlace (y * 2 ^ e)) := by
    unfold shiftToTargetExponent shiftToExponent
    dsimp only
    rw [target]
    congr 1
    omega
  unfold roundWithAccuracy
  rw [first]
  dsimp only
  rw [rounded, nearest]
  change withMantissa s _ _ = _
  rw [mantissa, exponent]
  split <;> rfl

/-! ### What is rounded to a double -/

theorem withMantissa_of_pos {s : Sign} {m : Nat} {q : Int} (pos : 0 < m) :
    withMantissa s m q = .finite s m q pos := dif_neg (Nat.ne_of_gt pos)

/-- All numbers around a double are rounded to it, half way to its neighbours, with the ends if its
mantissa is even. Below a power of two the neighbour is only half as far away. -/
theorem nearest_eq {s : Sign} {m : Nat} {q : Int} {y : ℚ} (h : Canonical m q)
    (lower : (m : ℚ) - 1 / 2 ≤ y) (dense : m = 2 ^ 52 → -1074 < q → (m : ℚ) - 1 / 4 ≤ y)
    (upper : y ≤ m + 1 / 2) (tie : m % 2 = 1 → (m : ℚ) - 1 / 2 < y ∧ y < m + 1 / 2) :
    nearest s (y * 2 ^ q) = .finite s m q h.pos := by
  have unit : (0 : ℚ) < 2 ^ q := zpow_pos (by norm_num) q
  have least := h.least
  have one : (1 : ℚ) ≤ m := by exact_mod_cast h.pos
  have most : (m : ℚ) + 1 ≤ 2 ^ 53 := by exact_mod_cast h.lt
  have pos : 0 < y * 2 ^ q := mul_pos (by linarith) unit
  by_cases whole : q = -1074 ∨ (2 : ℚ) ^ 52 ≤ y
  · have place : lastPlace (y * 2 ^ q) = q := by
      refine lastPlace_eq pos least ?_ (whole.imp_right fun long => ?_)
      · rw [add_comm, zpow_add_two]
        exact mul_lt_mul_of_pos_right (by norm_num at most ⊢; linarith) unit
      · rw [add_comm, zpow_add_two]
        exact mul_le_mul_of_nonneg_right (by exact_mod_cast long) unit.le
    have rounded : roundEven (y * 2 ^ q / 2 ^ q) = m := by
      rw [mul_div_cancel_right₀ _ unit.ne']
      exact roundEven_eq lower upper tie
    rw [nearest, place, rounded, if_neg (Nat.ne_of_lt h.lt), withMantissa_of_pos h.pos]
  · obtain ⟨normal, short⟩ := not_or.mp whole
    have full : 2 ^ 52 ≤ m := h.full.resolve_right normal
    have short : y < 2 ^ 52 := not_le.mp short
    have power : m = 2 ^ 52 := by
      refine Nat.le_antisymm (Nat.lt_succ_iff.mp ?_) full
      have close : (m : ℚ) < 2 ^ 52 + 1 := by linarith
      exact_mod_cast close
    have near := dense power (by omega)
    subst power
    push_cast at near most
    have unit' : (0 : ℚ) < 2 ^ (q - 1) := zpow_pos (by norm_num) _
    have shifted : y * 2 ^ q = 2 * y * 2 ^ (q - 1) := by
      have doubled : (2 : ℚ) ^ q = 2 * 2 ^ (q - 1) := by
        rw [← zpow_one_add₀ (by norm_num)]
        congr 1
        omega
      rw [doubled]
      ring
    have place : lastPlace (y * 2 ^ q) = q - 1 := by
      refine lastPlace_eq pos (by omega) ?_ (.inr ?_)
      · rw [shifted, add_comm, zpow_add_two]
        exact mul_lt_mul_of_pos_right (by norm_num at short ⊢; linarith) unit'
      · rw [shifted, add_comm, zpow_add_two]
        exact mul_le_mul_of_nonneg_right (by norm_num at near ⊢; linarith) unit'.le
    have rounded : roundEven (y * 2 ^ q / 2 ^ (q - 1)) = 2 ^ 53 := by
      rw [shifted, mul_div_cancel_right₀ _ unit'.ne']
      refine roundEven_eq ?_ ?_ fun odd => absurd odd (by decide)
      · push_cast
        linarith
      · push_cast
        linarith
    rw [nearest, place, rounded, if_pos rfl, withMantissa_of_pos h.pos]
    congr 1
    omega

/-- A double is rounded to itself. -/
theorem nearest_self {s : Sign} {m : Nat} {q : Int} (h : Canonical m q) :
    nearest s (m * 2 ^ q) = .finite s m q h.pos :=
  nearest_eq h (by linarith) (fun _ _ => by linarith) (by linarith)
    fun _ => ⟨by linarith, by linarith⟩

end PriceSignals.Binary64
