/-
Module: PriceSignals.Proofs.ShortestDecimal
Purpose: The shortest decimal of a double lies in the interval of the numbers that are rounded to
  it, whichever way ties are settled.
Main exports:
  Decimal.Around, Decimal.Around.nearest, Decimal.around_candidate, Decimal.around_shortest
-/
import PriceSignals.Decimal.Shortest
import PriceSignals.Proofs.FloatArithmetic

namespace PriceSignals.Decimal

open Binary64

/-! ### The interval of a double -/

/-- A number, counted in last places, that is rounded to the double `m * 2 ^ q`. -/
structure Around (m : Nat) (q : Int) (y : ℚ) : Prop where
  lower : (m : ℚ) - lowerGap m q / 4 ≤ y
  upper : y ≤ m + 1 / 2
  inner : m % 2 = 1 → (m : ℚ) - lowerGap m q / 4 < y ∧ y < m + 1 / 2

theorem lowerGap_le (m : Nat) (q : Int) : lowerGap m q ≤ 2 := by
  unfold lowerGap
  split <;> decide

/-- Every number of the interval is rounded to the double. -/
theorem Around.nearest {m : Nat} {q : Int} {y : ℚ} (h : Around m q y) (canonical : Canonical m q)
    (s : Float.Model.UnpackedFloat.Sign) :
    nearest s (y * 2 ^ q) = .finite s m q canonical.pos := by
  have gap : (lowerGap m q : ℚ) ≤ 2 := by exact_mod_cast lowerGap_le m q
  refine nearest_eq canonical ?_ (fun power normal => ?_) h.upper fun odd => ?_
  · linarith [h.lower]
  · have quarter : lowerGap m q = 1 := if_pos ⟨power, normal⟩
    have lower := h.lower
    rw [quarter] at lower
    exact_mod_cast lower
  · exact ⟨by linarith [(h.inner odd).1], (h.inner odd).2⟩

theorem Around.pos {m : Nat} {q : Int} {y : ℚ} (h : Around m q y) (some_mantissa : 0 < m) :
    0 < y := by
  have gap : (lowerGap m q : ℚ) ≤ 2 := by exact_mod_cast lowerGap_le m q
  have one : (1 : ℚ) ≤ m := by exact_mod_cast some_mantissa
  linarith [h.lower]

theorem around_self (m : Nat) (q : Int) : Around m q m := by
  have gap : 0 < lowerGap m q := by
    unfold lowerGap
    split <;> decide
  have gap : (0 : ℚ) < lowerGap m q := by exact_mod_cast gap
  exact ⟨by linarith, by linarith, fun _ => ⟨by linarith, by linarith⟩⟩

/-! ### Grid points -/

/-- One step of the grid `10 ^ i` is `parts / unit` last places. -/
theorem unit_mul (q i : Int) : (unit q i : ℚ) * 10 ^ i = parts q i * 2 ^ q := by
  have power {a : ℚ} (nonzero : a ≠ 0) (k : Int) : a ^ (-k).toNat * a ^ k = a ^ k.toNat := by
    rw [← zpow_natCast, ← zpow_natCast, ← zpow_add₀ nonzero]
    congr 1
    omega
  have units : (unit q i : ℚ) = 2 ^ q.toNat * 10 ^ (-i).toNat := by
    simp only [unit, Nat.pow_eq, Nat.cast_mul, Nat.cast_pow, Nat.cast_ofNat]
  have splits : (parts q i : ℚ) = 2 ^ (-q).toNat * 10 ^ i.toNat := by
    simp only [parts, Nat.pow_eq, Nat.cast_mul, Nat.cast_pow, Nat.cast_ofNat]
  rw [units, splits, mul_assoc, power (by norm_num) i, mul_right_comm, power (by norm_num) q]

theorem unit_pos (q i : Int) : 0 < unit q i :=
  Nat.mul_pos (Nat.pow_pos (by decide)) (Nat.pow_pos (by decide))

theorem parts_pos (q i : Int) : 0 < parts q i :=
  Nat.mul_pos (Nat.pow_pos (by decide)) (Nat.pow_pos (by decide))

/-- A grid point in last places. -/
theorem gridPoint_eq (n : Nat) (q i : Int) :
    (n : ℚ) * 10 ^ i / 2 ^ q = n * parts q i / unit q i := by
  have unit_ne : (unit q i : ℚ) ≠ 0 := by exact_mod_cast (unit_pos q i).ne'
  have power : (2 : ℚ) ^ q ≠ 0 := (zpow_pos (by norm_num) q).ne'
  rw [div_eq_div_iff power unit_ne, mul_assoc, mul_comm _ (unit q i : ℚ), unit_mul]
  ring

theorem le_of_within {closed : Bool} {a b : Nat} (h : within closed a b = true) :
    a ≤ b ∧ (closed = false → a < b) := by
  cases closed with
  | false =>
      have less : a < b := of_decide_eq_true h
      exact ⟨less.le, fun _ => less⟩
  | true => exact ⟨of_decide_eq_true h, nofun⟩

/-- The grid point below a double is in its interval if it fits from below. -/
theorem around_below {m : Nat} {q i : Int}
    (fits : within (m % 2 == 0) ((4 * m - lowerGap m q) * unit q i)
      (4 * below m q i * parts q i) = true) (some_mantissa : 0 < m) :
    Around m q (below m q i * 10 ^ i / 2 ^ q) := by
  obtain ⟨weak, strict⟩ := le_of_within fits
  have gap : lowerGap m q ≤ 4 * m := by
    have := lowerGap_le m q
    omega
  have positive : (0 : ℚ) < unit q i := by exact_mod_cast unit_pos q i
  have upto : (below m q i : ℚ) * parts q i ≤ m * unit q i := by
    exact_mod_cast Nat.div_mul_le_self (m * unit q i) (parts q i)
  rw [gridPoint_eq]
  have upper : (below m q i : ℚ) * parts q i / unit q i ≤ m := (div_le_iff₀ positive).mpr upto
  have cast : ((4 * m - lowerGap m q : Nat) : ℚ) = 4 * m - lowerGap m q := by
    push_cast [Nat.cast_sub gap]
    ring
  refine ⟨?_, by linarith, fun odd => ⟨?_, by linarith⟩⟩
  · have weak : ((4 * m - lowerGap m q : Nat) : ℚ) * unit q i ≤ 4 * below m q i * parts q i := by
      exact_mod_cast weak
    rw [cast] at weak
    rw [le_div_iff₀ positive]
    linarith
  · have strict := strict (by simp [odd])
    have strict : ((4 * m - lowerGap m q : Nat) : ℚ) * unit q i < 4 * below m q i * parts q i := by
      exact_mod_cast strict
    rw [cast] at strict
    rw [lt_div_iff₀ positive]
    linarith

/-- The grid point above a double is in its interval if it fits from above. -/
theorem around_above {m : Nat} {q i : Int}
    (fits : within (m % 2 == 0) (4 * (below m q i + 1) * parts q i)
      ((4 * m + 2) * unit q i) = true) :
    Around m q ((below m q i + 1 : Nat) * 10 ^ i / 2 ^ q) := by
  obtain ⟨weak, strict⟩ := le_of_within fits
  have positive : (0 : ℚ) < unit q i := by exact_mod_cast unit_pos q i
  have beyond : m * unit q i < (below m q i + 1) * parts q i := by
    rw [mul_comm _ (parts q i)]
    exact Nat.lt_mul_div_succ (m * unit q i) (parts_pos q i)
  have beyond : (m : ℚ) * unit q i < (below m q i + 1 : Nat) * parts q i := by
    exact_mod_cast beyond
  rw [gridPoint_eq]
  have lower : (m : ℚ) < (below m q i + 1 : Nat) * parts q i / unit q i :=
    (lt_div_iff₀ positive).mpr beyond
  have gap : (0 : ℚ) ≤ lowerGap m q := Nat.cast_nonneg _
  refine ⟨by linarith, ?_, fun odd => ⟨by linarith, ?_⟩⟩
  · have weak : (4 : ℚ) * (below m q i + 1 : Nat) * parts q i ≤ (4 * m + 2) * unit q i := by
      exact_mod_cast weak
    rw [div_le_iff₀ positive]
    linarith
  · have strict := strict (by simp [odd])
    have strict : (4 : ℚ) * (below m q i + 1 : Nat) * parts q i < (4 * m + 2) * unit q i := by
      exact_mod_cast strict
    rw [div_lt_iff₀ positive]
    linarith

/-- A candidate is the grid point below the double or the one above it, and fits. -/
theorem around_candidate {tie : Tie} {m n : Nat} {q i : Int} (h : candidate? tie m q i = some n)
    (some_mantissa : 0 < m) : Around m q (n * 10 ^ i / 2 ^ q) := by
  unfold candidate? at h
  dsimp only at h
  split at h
  · rename_i both
    obtain ⟨low, high⟩ := (Bool.and_eq_true _ _).mp both
    have either : n = below m q i ∨ n = below m q i + 1 := by
      split at h
      · exact .inl (Option.some.inj h).symm
      · split at h
        · exact .inr (Option.some.inj h).symm
        · cases tie with
          | up => exact .inr (Option.some.inj h).symm
          | even =>
              dsimp only at h
              split at h
              · exact .inl (Option.some.inj h).symm
              · exact .inr (Option.some.inj h).symm
    obtain rfl | rfl := either
    · exact around_below low some_mantissa
    · exact around_above high
  · split at h
    · rename_i low
      obtain rfl := Option.some.inj h
      exact around_below low some_mantissa
    · split at h
      · rename_i high
        obtain rfl := Option.some.inj h
        exact around_above high
      · cases h

/-! ### The search -/

/-- On the grid of the double's own exponent, or of the units, the double is a grid point. -/
theorem below_finest (m : Nat) (q : Int) :
    (below m q (min q 0) : ℚ) * 10 ^ min q 0 / 2 ^ q = m := by
  have powers : parts q (min q 0) ∣ unit q (min q 0) := by
    have units : (min q 0).toNat = 0 := by omega
    have twos : (-q).toNat ≤ (-min q 0).toNat := by omega
    have ten : 10 ^ (-min q 0).toNat = 2 ^ (-min q 0).toNat * 5 ^ (-min q 0).toNat := by
      rw [← mul_pow]
      norm_num
    simp only [parts, unit, Nat.pow_eq, units, pow_zero, mul_one]
    rw [ten]
    exact Dvd.dvd.mul_left (Dvd.dvd.mul_right (pow_dvd_pow 2 twos) _) _
  have whole : below m q (min q 0) * parts q (min q 0) = m * unit q (min q 0) :=
    Nat.div_mul_cancel (Dvd.dvd.mul_left powers m)
  have unit_ne : (unit q (min q 0) : ℚ) ≠ 0 := by exact_mod_cast (unit_pos q (min q 0)).ne'
  rw [gridPoint_eq, div_eq_iff unit_ne]
  exact_mod_cast whole

/-- The search ends on a point of the interval. It gives up on the finest grid only, where the
point below the double is the double. -/
theorem around_scan {tie : Tie} {m : Nat} {q : Int} (some_mantissa : 0 < m) (fuel : Nat) (i : Int)
    (enough : i = min q 0 + fuel) :
    Around m q ((scan tie m q fuel i).1 * 10 ^ (scan tie m q fuel i).2 / 2 ^ q) := by
  induction fuel generalizing i with
  | zero =>
      obtain rfl : i = min q 0 := by omega
      change Around m q (below m q (min q 0) * 10 ^ min q 0 / 2 ^ q)
      rw [below_finest]
      exact around_self m q
  | succ fuel ih =>
      rw [scan]
      cases found : candidate? tie m q i with
      | some n => exact around_candidate found some_mantissa
      | none => exact ih (i - 1) (by omega)

/-- The search starts above the finest grid. -/
theorem le_coarsest (m : Nat) (q : Int) : min q 0 ≤ coarsest m q := by
  unfold coarsest
  omega

/-- The shortest decimal of a double is rounded to it. -/
theorem around_shortest (tie : Tie) {m : Nat} (q : Int) (some_mantissa : 0 < m) :
    Around m q ((shortest tie m q).1 * 10 ^ (shortest tie m q).2 / 2 ^ q) := by
  have start := le_coarsest m q
  exact around_scan some_mantissa _ _ (by omega)

end PriceSignals.Decimal
