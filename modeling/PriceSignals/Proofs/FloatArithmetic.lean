/-
Module: PriceSignals.Proofs.FloatArithmetic
Purpose: Products, quotients and decimal numbers as doubles. Each is the double nearest to the exact
  number, whichever way it is computed.
Main exports:
  Binary64.round_eq, Binary64.mul_eq, Binary64.div_eq, Binary64.unpack_toFloat,
  Binary64.unpack_mul, Binary64.unpack_div, Binary64.unpack_ofScientific
-/
import PriceSignals.Proofs.FloatRounding

namespace PriceSignals.Binary64

open Float.Model Float.Model.UnpackedFloat

/-! ### Rounding exact mantissas -/

theorem represents_exact (m : Nat) :
    Represents (ExtendedMantissa.ofMantissaAndAccuracy m .exact) m := rfl

/-- A mantissa with enough bits is rounded to the nearest double. -/
theorem roundWithAccuracy_exact {s : Sign} {m : Nat} {e : Int} (pos : 0 < m)
    (fine : e ≤ lastPlace (m * 2 ^ e)) :
    roundWithAccuracy Format.binary64 s m e .exact = nearest s (m * 2 ^ e) :=
  roundWithAccuracy_eq (represents_exact m) (by exact_mod_cast pos) (.inl pos) fine

/-- Any mantissa is, once it has been given enough bits. -/
theorem round_eq {s : Sign} {m : Nat} {e : Int} (pos : 0 < m) :
    UnpackedFloat.round Format.binary64 s m e = nearest s (m * 2 ^ e) := by
  have floor : ⌊(m : ℚ)⌋₊ = m := Nat.floor_natCast m
  have target := targetExponent_eq_lastPlace (e := e) floor (by exact_mod_cast pos) (.inl pos)
  unfold UnpackedFloat.round decreaseExponent
  dsimp only
  rw [target, Nat.shiftLeft_eq]
  have value : ((m * 2 ^ (e - lastPlace (m * 2 ^ e)).toNat : Nat) : ℚ)
      * 2 ^ (e - ((e - lastPlace (m * 2 ^ e)).toNat : Int)) = m * 2 ^ e := by
    push_cast
    rw [mul_assoc, ← zpow_natCast, ← zpow_add_two]
    congr 2
    omega
  have rounded := roundWithAccuracy_exact (s := s)
    (m := m * 2 ^ (e - lastPlace (m * 2 ^ e)).toNat)
    (e := e - ((e - lastPlace (m * 2 ^ e)).toNat : Int)) (by positivity)
    (by rw [value]; omega)
  rw [rounded, value]

/-- So is a whole number of units. -/
theorem normalize_of_pos {k : Int} (pos : 0 < k) (e : Int) (zero : Sign) :
    UnpackedFloat.normalize Format.binary64 k e zero = nearest .positive (k * 2 ^ e) := by
  have sign : compare k 0 = .gt := Int.compare_eq_gt.mpr pos
  have size : ((k.toNat : Nat) : ℚ) = k := by
    exact_mod_cast congrArg (Int.cast (R := ℚ)) (Int.toNat_of_nonneg pos.le)
  rw [UnpackedFloat.normalize, sign]
  dsimp only
  rw [round_eq (by omega), size]

theorem normalize_of_neg {k : Int} (below : k < 0) (e : Int) (zero : Sign) :
    UnpackedFloat.normalize Format.binary64 k e zero = nearest .negative (-k * 2 ^ e) := by
  have sign : compare k 0 = .lt := Int.compare_eq_lt.mpr below
  have size : (((-k).toNat : Nat) : ℚ) = -k := by
    exact_mod_cast congrArg (Int.cast (R := ℚ)) (Int.toNat_of_nonneg (by omega : 0 ≤ -k))
  rw [UnpackedFloat.normalize, sign]
  dsimp only
  rw [round_eq (by omega), size]

/-- A whole number is rounded to the nearest double. -/
theorem ofNat_eq {n : Nat} (pos : 0 < n) :
    UnpackedFloat.ofNat Format.binary64 n = nearest .positive n := by
  unfold UnpackedFloat.ofNat UnpackedFloat.ofInt
  rw [normalize_of_pos (by exact_mod_cast pos), zpow_zero, mul_one, Int.cast_natCast]

/-! ### Products -/

/-- A product of doubles is rounded to the nearest double. It has bits enough: one of the factors
has 53 of them, or both have the least exponent. -/
theorem mul_eq {s t : Sign} {m n : Nat} {q r : Int} {posm : 0 < m} {posn : 0 < n}
    (fine : q + r ≤ lastPlace (m * 2 ^ q * (n * 2 ^ r))) :
    UnpackedFloat.mul Format.binary64 (.finite s m q posm) (.finite t n r posn)
      = nearest (s * t) (m * 2 ^ q * (n * 2 ^ r)) := by
  have value : (m : ℚ) * 2 ^ q * (n * 2 ^ r) = (m * n : Nat) * 2 ^ (q + r) := by
    rw [zpow_add_two]
    push_cast
    ring
  rw [value] at fine ⊢
  exact roundWithAccuracy_exact (Nat.mul_pos posm posn) fine

theorem le_lastPlace {v : ℚ} {q : Int} (pos : 0 < v) (h : q ≤ -1074 ∨ 2 ^ (q + 52) ≤ v) :
    q ≤ lastPlace v := by
  have above : q ≤ -1074 ∨ q + 52 ≤ Int.log 2 v := by
    rw [← Int.zpow_le_iff_le_log (by norm_num) pos]
    exact_mod_cast h
  unfold lastPlace
  omega

/-! ### Quotients -/

/-- A whole quotient with its remainder represents the quotient. -/
theorem represents_div (a : Nat) {b : Nat} (pos : 0 < b) :
    Represents (ExtendedMantissa.ofMantissaAndAccuracy (a / b) (accuracyOfFraction (a % b) b))
      (a / b) := by
  have positive : (0 : ℚ) < b := by exact_mod_cast pos
  have less : ((a % b : Nat) : ℚ) < b := by exact_mod_cast Nat.mod_lt a pos
  have whole : (a : ℚ) / b = (a / b : Nat) + (a % b : Nat) / b := by
    have parts : (b : ℚ) * (a / b : Nat) + (a % b : Nat) = a := by exact_mod_cast Nat.div_add_mod a b
    rw [eq_comm, ← parts]
    field_simp
  rw [whole]
  unfold accuracyOfFraction
  by_cases exact : a % b = 0
  · rw [if_pos exact, exact, Nat.cast_zero, zero_div, add_zero]
    exact represents_exact (a / b)
  · have some_left : (0 : ℚ) < (a % b : Nat) / b :=
      div_pos (by exact_mod_cast Nat.pos_of_ne_zero exact) positive
    have below : ((a % b : Nat) : ℚ) / b < 1 := (div_lt_one positive).mpr less
    rw [if_neg exact]
    cases order : compare (2 * (a % b)) b with
    | lt =>
        have half : 2 * ((a % b : Nat) : ℚ) < b := by exact_mod_cast Nat.compare_eq_lt.mp order
        have side : ((a % b : Nat) : ℚ) / b < 1 / 2 := by
          rw [div_lt_iff₀ positive]
          linarith
        simp only [Represents, ExtendedMantissa.ofMantissaAndAccuracy]
        exact ⟨by linarith, by linarith⟩
    | eq =>
        have half : 2 * ((a % b : Nat) : ℚ) = b := by exact_mod_cast Nat.compare_eq_eq.mp order
        have side : ((a % b : Nat) : ℚ) / b = 1 / 2 := by
          rw [div_eq_iff positive.ne']
          linarith
        simp only [Represents, ExtendedMantissa.ofMantissaAndAccuracy]
        rw [side]
    | gt =>
        have half : (b : ℚ) < 2 * (a % b : Nat) := by exact_mod_cast Nat.compare_eq_gt.mp order
        have side : 1 / 2 < ((a % b : Nat) : ℚ) / b := by
          rw [lt_div_iff₀ positive]
          linarith
        simp only [Represents, ExtendedMantissa.ofMantissaAndAccuracy]
        exact ⟨by linarith, by linarith⟩

/-- A quotient of doubles is rounded to the nearest double. -/
theorem div_eq {s t : Sign} {m n : Nat} {q r : Int} {posm : 0 < m} {posn : 0 < n} :
    UnpackedFloat.div Format.binary64 (.finite s m q posm) (.finite t n r posn)
      = nearest (s / t) (m * 2 ^ q / (n * 2 ^ r)) := by
  unfold UnpackedFloat.div divCore
  dsimp only
  rw [targetExponent_eq, totalExponent, totalExponent]
  obtain ⟨shortm, longm⟩ := log2_bounds m
  obtain ⟨shortn, longn⟩ := log2_bounds n
  have longm : (2 : ℚ) ^ (m.log2 : Int) ≤ m := by exact_mod_cast longm posm
  have shortn : (n : ℚ) < 2 ^ ((n.log2 : Int) + 1) := by exact_mod_cast shortn
  have posm' : (0 : ℚ) < m := by exact_mod_cast posm
  have posn' : (0 : ℚ) < n := by exact_mod_cast posn
  generalize place : min (q - r) (max ((m.log2 : Int) + 1 + q - (n.log2 + 1 + r) - 53) (-1074)) = e
  rw [Nat.shiftLeft_eq]
  have value : ((m * 2 ^ (q - r - e).toNat : Nat) : ℚ) / n * 2 ^ e
      = m * 2 ^ q / (n * 2 ^ r) := by
    have unit : (2 : ℚ) ^ (q - r - e).toNat * 2 ^ e * 2 ^ r = 2 ^ q := by
      rw [← zpow_natCast, ← zpow_add_two, ← zpow_add_two]
      congr 1
      omega
    have r_pos : (0 : ℚ) < 2 ^ r := zpow_pos (by norm_num) r
    rw [div_mul_eq_mul_div, div_eq_div_iff posn'.ne' (mul_pos posn' r_pos).ne', ← unit]
    push_cast
    ring
  have q_pos : (0 : ℚ) < 2 ^ q := zpow_pos (by norm_num) q
  have r_pos : (0 : ℚ) < 2 ^ r := zpow_pos (by norm_num) r
  have e_pos : (0 : ℚ) < 2 ^ e := zpow_pos (by norm_num) e
  have bits : (2 : ℚ) ^ ((m.log2 : Int) + q - (n.log2 + 1 + r)) ≤ m * 2 ^ q / (n * 2 ^ r) := by
    have top : (2 : ℚ) ^ ((m.log2 : Int) + q - (n.log2 + 1 + r)) * 2 ^ ((n.log2 : Int) + 1 + r)
        = 2 ^ (m.log2 : Int) * 2 ^ q := by
      rw [← zpow_add_two, ← zpow_add_two]
      congr 1
      omega
    have denominator : (n : ℚ) * 2 ^ r ≤ 2 ^ ((n.log2 : Int) + 1 + r) := by
      rw [zpow_add_two]
      exact mul_le_mul_of_nonneg_right shortn.le r_pos.le
    rw [le_div_iff₀ (mul_pos posn' r_pos)]
    calc _ ≤ (2 : ℚ) ^ ((m.log2 : Int) + q - (n.log2 + 1 + r)) * 2 ^ ((n.log2 : Int) + 1 + r) :=
          mul_le_mul_of_nonneg_left denominator (zpow_pos (by norm_num) _).le
      _ = 2 ^ (m.log2 : Int) * 2 ^ q := top
      _ ≤ m * 2 ^ q := mul_le_mul_of_nonneg_right longm q_pos.le
  have enough : e ≤ -1074 ∨ (2 : ℚ) ^ (e + 52) ≤ m * 2 ^ q / (n * 2 ^ r) := by
    by_cases small : e ≤ -1074
    · exact .inl small
    · exact .inr ((zpow_le_zpow_right₀ (by norm_num) (by omega)).trans bits)
  have fine : e ≤ lastPlace (m * 2 ^ q / (n * 2 ^ r)) :=
    le_lastPlace (div_pos (mul_pos posm' q_pos) (mul_pos posn' r_pos)) enough
  have positive : (0 : ℚ) < (m * 2 ^ (q - r - e).toNat : Nat) / n :=
    div_pos (by exact_mod_cast Nat.mul_pos posm (Nat.two_pow_pos _)) posn'
  rw [← value]
  refine roundWithAccuracy_eq (represents_div _ posn) positive ?_ (value.symm ▸ fine)
  refine enough.symm.imp_left fun long => Nat.div_pos ?_ posn
  rw [← value, zpow_add_two, mul_comm] at long
  have one : (1 : ℚ) ≤ (m * 2 ^ (q - r - e).toNat : Nat) / n := by
    have big := le_of_mul_le_mul_right long e_pos
    refine le_trans ?_ big
    norm_num
  rw [one_le_div posn'] at one
  exact_mod_cast one

/-! ### Whole numbers and powers of ten -/

/-- A whole number with at most 53 bits is a double. -/
theorem exists_canonical_eq_natCast {n : Nat} (pos : 0 < n) (short : n < 2 ^ 53) :
    ∃ m q, Canonical m q ∧ (m : ℚ) * 2 ^ q = n := by
  obtain ⟨bits, long⟩ := log2_bounds n
  have long := long pos
  have top : n.log2 < 53 := (Nat.log2_lt (Nat.ne_of_gt pos)).mpr short
  refine ⟨n * 2 ^ (52 - n.log2), n.log2 - 52, ?_, ?_⟩
  · have full : 2 ^ n.log2 * 2 ^ (52 - n.log2) = 2 ^ 52 := by
      rw [← pow_add]
      congr 1
      omega
    have scale : 0 < 2 ^ (52 - n.log2) := Nat.two_pow_pos _
    constructor
    case pos => exact Nat.mul_pos pos scale
    case lt =>
      calc n * 2 ^ (52 - n.log2) < 2 ^ (n.log2 + 1) * 2 ^ (52 - n.log2) :=
            Nat.mul_lt_mul_of_pos_right bits scale
        _ = 2 ^ 53 := by rw [pow_succ, mul_right_comm, full]; rfl
    case least => omega
    case greatest => omega
    case full => exact .inl (full ▸ Nat.mul_le_mul_right _ long)
  · have scale : (2 : ℚ) ^ (52 - n.log2) * 2 ^ ((n.log2 : Int) - 52) = 1 := by
      rw [← zpow_natCast, ← zpow_add_two, ← zpow_zero 2]
      congr 1
      omega
    push_cast
    rw [mul_assoc, scale, mul_one]

/-- A short whole number is converted without loss. -/
theorem unpack_toFloat {n : Nat} (pos : 0 < n) (short : n < 2 ^ 53) :
    ∃ m q, ∃ h : Canonical m q,
      n.toUInt64.toFloat.toModel.unpack = .finite .positive m q h.pos ∧ (m : ℚ) * 2 ^ q = n := by
  obtain ⟨m, q, canonical, value⟩ := exists_canonical_eq_natCast pos short
  refine ⟨m, q, canonical, ?_, value⟩
  have word : n.toUInt64.toNat = n := by
    rw [Nat.toUInt64, UInt64.toNat_ofNat']
    exact Nat.mod_eq_of_lt (by omega)
  change (Float.Model.pack (UnpackedFloat.ofNat Format.binary64 n.toUInt64.toNat)).unpack = _
  rw [word, ofNat_eq pos, ← value, nearest_self canonical, unpack_pack_of_canonical canonical]

/-- A finite double is known from its size and its sign. -/
theorem unpack_of_magnitude? {x : Float} {m : Nat} {q : Int} (pos : 0 < m)
    (size : magnitude? x = some (m, q)) (sign : isNegative x = false) :
    x.toModel.unpack = .finite .positive m q pos := by
  unfold magnitude? at size
  unfold isNegative at sign
  cases form : x.toModel.unpack with
  | notANumber => simp [form] at size
  | infinity s => simp [form] at size
  | zero s =>
      simp [form] at size
      omega
  | finite s n r pos' =>
      simp only [form, Option.some.injEq, Prod.mk.injEq] at size sign
      obtain ⟨rfl, rfl⟩ := size
      cases s with
      | negative => cases sign
      | positive => rfl

/-- The table of powers of ten, as mantissas of 53 bits. -/
theorem powersOfTen_table (k : Fin Float.exactlyRepresentablePowersOfTen.size) :
    magnitude? Float.exactlyRepresentablePowersOfTen[k.val]
        = some (5 ^ k.val * 2 ^ (52 - (5 ^ k.val).log2),
            (k.val : Int) - ((52 - (5 ^ k.val).log2 : Nat) : Int)) ∧
      isNegative Float.exactlyRepresentablePowersOfTen[k.val] = false := by
  revert k
  decide +kernel

/-- The powers of ten in the table are exact. -/
theorem unpack_powerOfTen {k : Nat} (inside : k < Float.exactlyRepresentablePowersOfTen.size) :
    ∃ m q, ∃ h : Canonical m q,
      Float.exactlyRepresentablePowersOfTen[k].toModel.unpack = .finite .positive m q h.pos ∧
        (m : ℚ) * 2 ^ q = 10 ^ k := by
  obtain ⟨size, sign⟩ := powersOfTen_table ⟨k, inside⟩
  have form := unpack_of_magnitude? (by positivity) size sign
  refine ⟨_, _, canonical_of_unpack form, form, ?_⟩
  have powers : (10 : ℚ) ^ k = 5 ^ k * 2 ^ k := by
    rw [← mul_pow]
    norm_num
  dsimp only
  rw [powers]
  push_cast
  rw [mul_assoc, ← zpow_natCast 2 (52 - ((5 : Nat) ^ k).log2), ← zpow_add_two, ← zpow_natCast 2 k]
  congr 2
  omega

/-! ### Decimal numbers -/

/-- A decimal number is rounded to the nearest double, unless its exponent is so far out that its
power of ten is not even computed. -/
theorem ofScientific_eq {c : Nat} {e : Int} (pos : 0 < c) (high : e ≤ 2048)
    (low : -(2048 + (c.log2 : Int)) ≤ e) :
    UnpackedFloat.ofScientific Format.binary64 c e = nearest .positive (c * 10 ^ e) := by
  have high : ¬ e > 2 ^ Format.binary64.exponentBits := by
    change ¬ e > 2 ^ 11
    omega
  have low : ¬ e < -((2 ^ Format.binary64.exponentBits : Int) + c.log2) := by
    change ¬ e < -(2 ^ 11 + (c.log2 : Int))
    omega
  have pos' : (0 : ℚ) < c := by exact_mod_cast pos
  unfold UnpackedFloat.ofScientific
  rw [dif_neg (Nat.ne_of_gt pos), if_neg high, if_neg low]
  split
  · rename_i whole
    have power : (10 : ℚ) ^ e = (10 ^ e.toNat : Nat) := by
      rw [← pow_toNat 10 whole]
      push_cast
      rfl
    have value : ((c <<< 53 : Nat) : ℚ) * 2 ^ (-53 : Int) * ((10 ^ e.toNat : Nat) * 2 ^ (0 : Int))
        = c * 10 ^ e := by
      have unit : ((2 ^ 53 : Nat) : ℚ) * 2 ^ (-53 : Int) = 1 := by norm_num
      rw [power, Nat.shiftLeft_eq, zpow_zero, mul_one, Nat.cast_mul, mul_assoc (c : ℚ), unit,
        mul_one]
    have one : (1 : ℚ) ≤ c * 10 ^ e := by
      rw [power]
      exact_mod_cast Nat.mul_pos pos (Nat.pow_pos (by norm_num))
    rw [← value]
    refine @mul_eq .positive .positive (c <<< 53) (10 ^ e.toNat) (-53) 0 _ _
      (le_lastPlace ?_ (.inr ?_))
    · rw [value]
      linarith
    · rw [value]
      refine le_trans ?_ one
      norm_num
  · rename_i fraction
    have power : (10 : ℚ) ^ e = ((10 ^ (-e).toNat : Nat) : ℚ)⁻¹ := by
      rw [Nat.cast_pow, Nat.cast_ofNat, pow_toNat 10 (by omega), ← zpow_neg, neg_neg]
    have value : (c : ℚ) * 2 ^ (0 : Int) / ((10 ^ (-e).toNat : Nat) * 2 ^ (0 : Int))
        = c * 10 ^ e := by
      rw [power, zpow_zero, mul_one, mul_one, div_eq_mul_inv]
    rw [← value]
    exact div_eq


/-! ### Doubles -/

/-- Two doubles have bits enough for their product: one of them has 53, or both have the least
exponent. -/
theorem exponents_le_lastPlace {m n : Nat} {q r : Int} (hm : Canonical m q) (hn : Canonical n r) :
    q + r ≤ lastPlace (m * 2 ^ q * (n * 2 ^ r)) := by
  have unit_q : (0 : ℚ) < 2 ^ q := zpow_pos (by norm_num) q
  have unit_r : (0 : ℚ) < 2 ^ r := zpow_pos (by norm_num) r
  have one_m : (1 : ℚ) ≤ m := by exact_mod_cast hm.pos
  have one_n : (1 : ℚ) ≤ n := by exact_mod_cast hn.pos
  have rearranged : (m : ℚ) * 2 ^ q * (n * 2 ^ r) = m * n * 2 ^ (q + r) := by
    rw [zpow_add_two]
    ring
  have unit : (0 : ℚ) < 2 ^ (q + r) := zpow_pos (by norm_num) _
  have long (full : 2 ^ 52 ≤ m ∨ 2 ^ 52 ≤ n) : (2 : ℚ) ^ (q + r + 52) ≤ m * n * 2 ^ (q + r) := by
    have product : (2 : ℚ) ^ (52 : Int) ≤ m * n := by
      obtain full | full := full
      · have full : (2 : ℚ) ^ (52 : Int) ≤ m := by exact_mod_cast full
        nlinarith
      · have full : (2 : ℚ) ^ (52 : Int) ≤ n := by exact_mod_cast full
        nlinarith
    rw [add_comm, zpow_add_two]
    exact mul_le_mul_of_nonneg_right product unit.le
  rw [rearranged]
  refine le_lastPlace (by positivity) ?_
  obtain full | least := hm.full
  · exact .inr (long (.inl full))
  · obtain full | least' := hn.full
    · exact .inr (long (.inr full))
    · exact .inl (by omega)

/-- The product of two finite doubles is the double nearest to their exact product. -/
theorem unpack_mul {x y : Float} {s t : Sign} {m n : Nat} {q r : Int} {posm : 0 < m} {posn : 0 < n}
    (hx : x.toModel.unpack = .finite s m q posm) (hy : y.toModel.unpack = .finite t n r posn) :
    (x * y).toModel.unpack
      = (Float.Model.pack (nearest (s * t) (m * 2 ^ q * (n * 2 ^ r)))).unpack := by
  have product : (x * y).toModel.unpack = (Float.Model.pack
      (UnpackedFloat.mul .binary64 x.toModel.unpack y.toModel.unpack)).unpack := rfl
  rw [product, hx, hy, mul_eq (exponents_le_lastPlace (canonical_of_unpack hx)
    (canonical_of_unpack hy))]

/-- The quotient of two finite doubles is the double nearest to their exact quotient. -/
theorem unpack_div {x y : Float} {s t : Sign} {m n : Nat} {q r : Int} {posm : 0 < m} {posn : 0 < n}
    (hx : x.toModel.unpack = .finite s m q posm) (hy : y.toModel.unpack = .finite t n r posn) :
    (x / y).toModel.unpack
      = (Float.Model.pack (nearest (s / t) (m * 2 ^ q / (n * 2 ^ r)))).unpack := by
  have quotient : (x / y).toModel.unpack = (Float.Model.pack
      (UnpackedFloat.div .binary64 x.toModel.unpack y.toModel.unpack)).unpack := rfl
  rw [quotient, hx, hy, div_eq]

/-- A decimal number is read as the double nearest to it. Short mantissas with small exponents are
multiplied with, or divided by, an exact power of ten, and all others are rounded at once. -/
theorem unpack_ofScientific {c k : Nat} {fraction : Bool} (pos : 0 < c)
    (high : fraction = false → k ≤ 2048) (low : fraction = true → k ≤ 2048 + c.log2) :
    (Float.ofScientific c fraction k).toModel.unpack
      = (Float.Model.pack (nearest .positive
          (c * 10 ^ (if fraction then -(k : Int) else k)))).unpack := by
  unfold Float.ofScientific
  split
  · rename_i small
    obtain ⟨short, inside⟩ := small
    have bound : k < Float.exactlyRepresentablePowersOfTen.size := Nat.lt_succ_of_le inside
    obtain ⟨m, q, hm, mantissa, m_value⟩ := unpack_toFloat pos short
    obtain ⟨n, r, hn, power, n_value⟩ := unpack_powerOfTen bound
    dsimp only
    cases fraction with
    | true =>
        rw [if_pos rfl, if_pos rfl, unpack_div mantissa power, m_value, n_value, zpow_neg,
          zpow_natCast, div_eq_mul_inv]
        rfl
    | false =>
        rw [if_neg (by decide), if_neg (by decide), unpack_mul mantissa power, m_value, n_value,
          zpow_natCast]
        rfl
  · cases fraction with
    | true =>
        have bound := low rfl
        have exponent : Int.negOfNat k = -(k : Int) := Int.negOfNat_eq
        rw [if_pos rfl, if_pos rfl]
        dsimp only
        rw [exponent]
        change (Float.Model.pack (UnpackedFloat.ofScientific .binary64 c (-(k : Int)))).unpack = _
        rw [ofScientific_eq pos (by omega) (by omega)]
    | false =>
        have bound := high rfl
        rw [if_neg (by decide), if_neg (by decide)]
        change (Float.Model.pack (UnpackedFloat.ofScientific .binary64 c (k : Int))).unpack = _
        rw [ofScientific_eq pos (by omega) (by omega)]

end PriceSignals.Binary64
