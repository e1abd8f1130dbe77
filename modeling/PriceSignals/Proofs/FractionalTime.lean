/-
Module: PriceSignals.Proofs.FractionalTime
Purpose: Times in seconds with a fraction. The instant is known from the exact value of the double:
  its whole part, rounded down, and nanoseconds that grow with the part of a second and never make a
  full one.
Main exports:
  BarTime.nanosOf, BarTime.nanosOf_mono, BarTime.nanosOf_lt, BarTime.ofSeconds?_eq,
  BarTime.ofSeconds?_whole, fractional_seconds_sound
-/
import PriceSignals.Proofs.FloatOperations
import PriceSignals.Proofs.SortedHistory

namespace PriceSignals

namespace Time.Instant

/-- The instant of seconds and nanoseconds is the one that has them. -/
theorem ofUnix?_eq_some_iff {secs : Int} {nanos : Nat} {t : Instant} :
    ofUnix? secs nanos = some t ↔ t.secs = secs ∧ t.nanos = nanos := by
  unfold ofUnix?
  constructor
  · intro found
    split at found
    · obtain rfl := Option.some.inj found
      exact ⟨rfl, rfl⟩
    · cases found
  · rintro ⟨rfl, rfl⟩
    rw [dif_pos ⟨t.supported, t.within_second⟩]

/-- Below a full second there are no leap seconds, and the years alone decide. -/
theorem isSome_ofUnix? {secs : Int} {nanos : Nat} (short : nanos < 1000000000) :
    (ofUnix? secs nanos).isSome = true ↔ minSecs ≤ secs ∧ secs ≤ maxSecs := by
  rw [Option.isSome_iff_exists]
  constructor
  · rintro ⟨t, found⟩
    obtain ⟨rfl, -⟩ := ofUnix?_eq_some_iff.mp found
    exact t.supported
  · intro inside
    exact ⟨⟨secs, nanos, inside, .inl short⟩, ofUnix?_eq_some_iff.mpr ⟨rfl, rfl⟩⟩

end Time.Instant

namespace BarTime

open Binary64 Time

/-! ### The part of a second -/

/-- The nanoseconds of a part of a second. It is rounded to a double twice, as a difference and as a
product, then to a whole number, a half going up; a full second is not reached. -/
def nanosOf (part : ℚ) : Nat := min ⌊rounded (rounded part * 10 ^ 9) + 1 / 2⌋₊ 999999999

theorem nanosOf_lt (part : ℚ) : nanosOf part < 1000000000 :=
  Nat.lt_of_le_of_lt (Nat.min_le_right _ _) (by decide)

theorem nanosOf_zero : nanosOf 0 = 0 := by
  rw [nanosOf, rounded_zero, zero_mul, rounded_zero]
  norm_num

/-- More of a second is never fewer nanoseconds. -/
theorem nanosOf_mono {v w : ℚ} (nonneg : 0 ≤ v) (h : v ≤ w) : nanosOf v ≤ nanosOf w := by
  have parts : rounded v * 10 ^ 9 ≤ rounded w * 10 ^ 9 :=
    mul_le_mul_of_nonneg_right (rounded_mono nonneg h) (by norm_num)
  have products := rounded_mono (mul_nonneg (rounded_nonneg v) (by norm_num)) parts
  exact min_le_min_right _ (Nat.floor_mono (add_le_add_left products _))

theorem hasValue_billion : HasValue 1e9 (10 ^ 9) := by
  have form : (1e9 : Float).toModel.unpack
      = .finite .positive (10 ^ 9 * 2 ^ 23) (-23) (by decide) := rfl
  exact .of_form form (by norm_num)

/-! ### The instant -/

/-- A number of seconds has the instant of its whole part, rounded down, and of the nanoseconds of
the rest. -/
theorem ofSeconds?_eq {x : Float} {v : ℚ} (hx : value? x = some v) :
    ofSeconds? x = Instant.ofUnix? ⌊v⌋ (nanosOf (Int.fract v)) := by
  have floor : floor? x = some ⌊v⌋ := by
    rw [floor?_eq, hx, Option.map_some]
  by_cases inside : Instant.minSecs ≤ ⌊v⌋ ∧ ⌊v⌋ ≤ Instant.maxSecs
  · -- Seconds of these years have fewer than 53 bits.
    have whole : value? (Float.ofInt ⌊v⌋) = some (⌊v⌋ : ℚ) := by
      apply value?_ofInt
      apply isDouble_natCast
      unfold Instant.minSecs Instant.maxSecs at inside
      omega
    have one_short : 1 < 2 ^ 53 := by decide
    have below : Int.fract v ≤ 1 := (Int.fract_lt_one v).le
    have rest : HasValue (x - Float.ofInt ⌊v⌋) (rounded (Int.fract v)) :=
      hasValue_sub hx whole (Int.floor_le v) (inRange_of_le (by
        rw [Int.self_sub_floor]
        linarith))
    have small : rounded (Int.fract v) ≤ 1 :=
      rounded_le (Int.fract_nonneg v) below (by exact_mod_cast isDouble_natCast one_short)
    have nanos := (rest.mul hasValue_billion (inRange_of_le (by linarith))).nearestNat?_eq
    unfold ofSeconds?
    rw [floor, Option.bind_eq_bind, Option.bind_some, nanos]
    rfl
  · have no_instant := Instant.ofUnix?_of_outside (show ⌊v⌋ < _ ∨ _ < ⌊v⌋ by omega)
    unfold ofSeconds?
    simp [floor, no_instant]

/-- A whole number of seconds has the instant of that number. -/
theorem ofSeconds?_whole {x : Float} {n : Int} (hx : value? x = some (n : ℚ)) :
    ofSeconds? x = Instant.ofUnix? n 0 := by
  rw [ofSeconds?_eq hx, Int.floor_intCast, Int.fract_intCast, nanosOf_zero]

/-- Infinities and NaN have no instant. -/
theorem ofSeconds?_of_not_finite {x : Float} (infinite : value? x = none) :
    ofSeconds? x = none := by
  unfold ofSeconds?
  rw [floor?_eq, infinite]
  rfl

/-- What is known of an instant that a number of seconds has. -/
theorem ofSeconds?_eq_some_iff {x : Float} {t : Instant} :
    ofSeconds? x = some t ↔
      ∃ v, value? x = some v ∧ (Instant.minSecs ≤ ⌊v⌋ ∧ ⌊v⌋ ≤ Instant.maxSecs) ∧
        t.secs = ⌊v⌋ ∧ t.nanos = nanosOf (Int.fract v) := by
  cases hx : value? x with
  | none =>
      rw [ofSeconds?_of_not_finite hx]
      simp
  | some v =>
      rw [ofSeconds?_eq hx, Instant.ofUnix?_eq_some_iff]
      constructor
      · rintro ⟨secs, nanos⟩
        exact ⟨v, rfl, secs ▸ t.supported, secs, nanos⟩
      · rintro ⟨w, same, -, secs, nanos⟩
        obtain rfl := Option.some.inj same
        exact ⟨secs, nanos⟩

/-- A later number of seconds does not have an earlier instant. -/
theorem ofSeconds?_mono {x y : Float} {t u : Instant} (h : x ≤ y) (ht : ofSeconds? x = some t)
    (hu : ofSeconds? y = some u) : u.before t = false := by
  obtain ⟨v, hx, -, tsecs, tnanos⟩ := ofSeconds?_eq_some_iff.mp ht
  obtain ⟨w, hy, -, usecs, unanos⟩ := ofSeconds?_eq_some_iff.mp hu
  have values : v ≤ w := (le_iff_of_value? hx hy).mp h
  have wholes : ⌊v⌋ ≤ ⌊w⌋ := Int.floor_mono values
  have rests (same : ⌊v⌋ = ⌊w⌋) : nanosOf (Int.fract v) ≤ nanosOf (Int.fract w) := by
    apply nanosOf_mono (Int.fract_nonneg v)
    rw [Int.fract, Int.fract, same]
    linarith
  rw [Bool.eq_false_iff, ne_eq, Instant.before_iff, tsecs, tnanos, usecs, unanos]
  omega

/-- A whole number that is the value of some double is that of its own conversion. -/
theorem value?_ofInt_of_value? {x : Float} {n : Int} (hx : value? x = some (n : ℚ)) :
    value? (Float.ofInt n) = some (n : ℚ) := by
  apply value?_ofInt
  rw [Nat.cast_natAbs, Int.cast_abs]
  exact isDouble_abs hx

end BarTime

open Binary64 Time

/-- A number of seconds has an instant exactly if it is finite and its whole part, rounded down,
lies in the years that are supported. That whole part is the second of the instant, which is never a
leap second. Later numbers do not have earlier instants, and a whole number that is a double has the
instant of that whole number, or neither has one. -/
theorem fractional_seconds_sound (x : Float) :
    ((BarTime.fractional x).instant?.isSome = true ↔
      x.isFinite = true ∧
        ∃ v, value? x = some v ∧ Instant.minSecs ≤ ⌊v⌋ ∧ ⌊v⌋ ≤ Instant.maxSecs) ∧
    (∀ t, (BarTime.fractional x).instant? = some t →
      ∃ v, value? x = some v ∧ t.secs = ⌊v⌋ ∧ t.nanos < 1000000000) ∧
    (∀ y t u, x ≤ y → (BarTime.fractional x).instant? = some t →
      (BarTime.fractional y).instant? = some u → u.before t = false) ∧
    (∀ s : Int64, value? x = some (s.toInt : ℚ) →
      (BarTime.fractional x).instant? = (BarTime.unix s).instant? ∧
      (BarTime.fractional (Float.ofInt s.toInt)).instant? = (BarTime.unix s).instant?) := by
  refine ⟨?presence, ?fields, ?order, ?whole⟩
  case presence =>
    rw [BarTime.instant?, ← isSome_value?]
    cases hx : value? x with
    | none => simp [BarTime.ofSeconds?_of_not_finite hx]
    | some v => simp [BarTime.ofSeconds?_eq hx, Instant.isSome_ofUnix? (BarTime.nanosOf_lt _)]
  case fields =>
    intro t ht
    obtain ⟨v, hx, -, secs, nanos⟩ := BarTime.ofSeconds?_eq_some_iff.mp ht
    exact ⟨v, hx, secs, nanos ▸ BarTime.nanosOf_lt _⟩
  case order =>
    intro y t u h ht hu
    exact BarTime.ofSeconds?_mono h ht hu
  case whole =>
    intro s hx
    exact ⟨BarTime.ofSeconds?_whole hx,
      BarTime.ofSeconds?_whole (BarTime.value?_ofInt_of_value? hx)⟩

/-- Just below zero is the last nanosecond of 1969. It is not after minus zero, which has the
instant of the whole number. -/
theorem fractional_seconds_sound_around_zero :
    ∃ t u, (BarTime.fractional (-1e-20)).instant? = some t ∧ t.secs = -1 ∧ t.nanos = 999999999 ∧
      (BarTime.fractional (-0.0)).instant? = some u ∧ u.before t = false ∧
      (BarTime.unix 0).instant? = some u := by
  let last : Instant := ⟨-1, 999999999, by decide, by decide⟩
  let first : Instant := ⟨0, 0, by decide, by decide⟩
  have below : (BarTime.fractional (-1e-20)).instant? = some last := by decide +kernel
  have zero : (BarTime.fractional (-0.0)).instant? = some first := by decide +kernel
  have value : value? (-0.0) = some (((0 : Int64).toInt : Int) : ℚ) := by
    decide +kernel
  obtain ⟨-, -, order, -⟩ := fractional_seconds_sound (-1e-20)
  obtain ⟨-, -, -, whole⟩ := fractional_seconds_sound (-0.0)
  exact ⟨last, first, below, rfl, rfl, zero, order _ _ _ (by decide +kernel) below zero,
    (whole 0 value).1.symm.trans zero⟩

end PriceSignals
