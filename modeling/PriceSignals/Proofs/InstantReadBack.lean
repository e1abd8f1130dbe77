/-
Module: PriceSignals.Proofs.InstantReadBack
Purpose: An instant is read from its text, whatever its year, its fraction, and be it in a leap
  second.
Main exports:
  Digit.length_padded, Time.number_text, Time.year_yearText, Time.dateParts_text,
  Time.clockParts_text, Time.fractionOf, Time.optionalFraction_fractionText, Time.readLenient_text,
  Time.Instant.toInstant_clock, Time.Instant.readLenient_textChars
-/
import PriceSignals.Proofs.CalendarDates
import PriceSignals.Proofs.Results
import PriceSignals.Proofs.TimeReadBack

namespace PriceSignals

namespace Digit

/-- A number that is short enough takes exactly its width. -/
theorem length_padded {width n : Nat} (some_places : 0 < width) (short : n < 10 ^ width) :
    (padded width n).length = width := by
  have fits : (ofNat n).length ≤ width := by
    obtain ⟨-, -, most⟩ := length_ofNat n
    by_contra long
    rcases Nat.eq_zero_or_pos n with rfl | positive
    · rw [ofNat, if_pos (by norm_num), List.length_singleton] at long
      omega
    · have most := most positive
      have power : 10 ^ (width + 1) ≤ 10 ^ (ofNat n).length :=
        Nat.pow_le_pow_right (by norm_num) (by omega)
      rw [pow_succ] at power
      omega
  simp only [padded, List.length_append, List.length_replicate]
  omega

end Digit

namespace Time

/-! ### Numbers -/

/-- A place where no number goes on. -/
def NoDigit (cs : List Char) : Prop := ∀ c, cs.head? = some c → Digit.ofChar? c = none

theorem takeRow_of_noDigit {cs : List Char} (h : NoDigit cs) :
    Digit.takeRow Digit.ofChar? cs = ([], cs) := by
  cases cs with
  | nil => rfl
  | cons c cs => rw [Digit.takeRow, h c rfl]

theorem noDigit_cons {c : Char} (cs : List Char) (h : Digit.ofChar? c = none) :
    NoDigit (c :: cs) := by
  intro d head
  obtain rfl := Option.some.inj head
  exact h

/-- Of a text that begins with digits, these are taken and no further one. -/
theorem takeRow_take {most : Nat} {row : List Digit} {rest : List Char} (upto : row.length ≤ most)
    (ends : row.length = most ∨ NoDigit rest) :
    (Digit.takeRow Digit.ofChar? ((Digit.text row ++ rest).take most)).1 = row := by
  have length : (Digit.text row).length = row.length := List.length_map _
  rw [List.take_append, List.take_of_length_le (by omega), length, Digit.takeRow_text]
  rcases ends with full | stop
  · rw [full, Nat.sub_self, List.take_zero]
    simp [Digit.takeRow]
  · have stop : NoDigit (rest.take (most - row.length)) := by
      intro c head
      apply stop
      cases places : most - row.length with
      | zero => simp [places] at head
      | succ k => simpa [places, List.head?_take] using head
    rw [takeRow_of_noDigit stop, List.append_nil]

/-- Digits are read as the number that they stand for, if they are neither too few nor too many and
no further digit is taken for one of them. -/
theorem number_text {least most : Nat} {row : List Digit} {rest : List Char}
    (enough : least ≤ row.length) (upto : row.length ≤ most)
    (ends : row.length = most ∨ NoDigit rest)
    (fits : (Digit.value row : Int) ≤ Int64.maxValue.toInt) :
    number least most (Digit.text row ++ rest) = .ok (Digit.value row, rest) := by
  have length : (Digit.text row).length = row.length := List.length_map _
  have left : (Digit.text row ++ rest).drop row.length = rest := by
    rw [← length, List.drop_left]
  unfold number
  rw [if_neg (by rw [List.length_append, length]; omega)]
  dsimp only
  rw [takeRow_take upto ends, left, if_neg (by omega), if_neg (by omega)]

/-- There are no blanks in front of digits. -/
theorem trimStart_text {row : List Digit} (some_digits : row ≠ []) (rest : List Char) :
    Text.trimStart (Digit.text row ++ rest) = Digit.text row ++ rest := by
  cases row with
  | nil => exact absurd rfl some_digits
  | cons d row =>
      apply Text.trimStart_of_head
      intro c head
      obtain rfl := Option.some.inj head
      exact @Decimal.isBlank_digits (d :: row) _ List.mem_cons_self

theorem trimStart_cons {c : Char} (cs : List Char) (h : Text.isBlank c = false) :
    Text.trimStart (c :: cs) = c :: cs := by
  apply Text.trimStart_of_head
  intro d head
  obtain rfl := Option.some.inj head
  exact h

theorem length_twoDigits {n : Nat} (small : n < 100) : (Digit.padded 2 n).length = 2 :=
  Digit.length_padded (by norm_num) small

theorem number_twoDigits {least n : Nat} (upto : least ≤ 2) (small : n < 100) (rest : List Char) :
    number least 2 (Instant.twoDigits n ++ rest) = .ok (n, rest) := by
  have length := length_twoDigits small
  have word : ((Digit.value (Digit.padded 2 n) : Nat) : Int) ≤ Int64.maxValue.toInt := by
    rw [Digit.value_padded]
    exact (by omega : (n : Int) ≤ 99).trans (by decide)
  have read := @number_text least 2 _ rest (upto.trans_eq length.symm) length.le (.inl length) word
  rwa [Digit.value_padded] at read

theorem ranged_of_ok {low high n : Nat} {read : List Char → Except Fault (Nat × List Char)}
    {cs rest : List Char} (h : read cs = .ok (n, rest)) (from_low : low ≤ n)
    (upto_high : n ≤ high) : ranged low high read cs = .ok (n, rest) := by
  rw [ranged, bind_of_ok h]
  dsimp only
  rw [if_pos ⟨from_low, upto_high⟩]
  rfl

theorem roomyNumber_twoDigits {low high n : Nat} (small : n < 100) (from_low : low ≤ n)
    (upto_high : n ≤ high) (rest : List Char) :
    roomyNumber low high (Instant.twoDigits n ++ rest) = .ok (n, rest) := by
  have some_digits : Digit.padded 2 n ≠ [] := by
    intro empty
    have length := length_twoDigits small
    rw [empty] at length
    cases length
  have start : Text.trimStart (Instant.twoDigits n ++ rest) = Instant.twoDigits n ++ rest :=
    trimStart_text some_digits rest
  rw [roomyNumber, start]
  exact ranged_of_ok (number_twoDigits (by norm_num) small rest) from_low upto_high

theorem roomyExpect_cons {c : Char} (visible : Text.isBlank c = false) (rest : List Char) :
    roomyExpect c (c :: rest) = .ok ((), rest) := by
  rw [roomyExpect, trimStart_cons rest visible, expect, if_pos rfl]

/-! ### Dates and times of day -/

/-- The years that are supported. -/
def Supported (year : Int) : Prop := -262143 ≤ year ∧ year ≤ 262142

/-- A year is read as it has been written. -/
theorem year_yearText {y : Int} (supported : Supported y) (rest : List Char) :
    year (Instant.yearText y ++ '-' :: rest) = .ok (y, '-' :: rest) := by
  obtain ⟨low, high⟩ := supported
  have int32 : Int32.minValue.toInt ≤ y ∧ y ≤ Int32.maxValue.toInt := by
    constructor
    · exact (by decide : Int32.minValue.toInt ≤ -262143).trans low
    · exact high.trans (by decide : (262142 : Int) ≤ Int32.maxValue.toInt)
  have word : ((Digit.value (Digit.padded 4 y.natAbs) : Nat) : Int) ≤ Int64.maxValue.toInt := by
    rw [Digit.value_padded]
    exact (by omega : (y.natAbs : Int) ≤ 262143).trans (by decide)
  have some_digits : 1 ≤ (Digit.padded 4 y.natAbs).length := by
    have := (Digit.length_ofNat y.natAbs).1
    simp only [Digit.padded, List.length_append, List.length_replicate]
    omega
  have stop : NoDigit ('-' :: rest) := noDigit_cons rest rfl
  have read {most : Nat} (upto : (Digit.padded 4 y.natAbs).length ≤ most) :
      number 1 most (Digit.text (Digit.padded 4 y.natAbs) ++ '-' :: rest)
        = .ok (y.natAbs, '-' :: rest) := by
    rw [number_text some_digits upto (.inr stop) word, Digit.value_padded]
  unfold Instant.yearText
  dsimp only
  split
  · rename_i plain
    have length : (Digit.padded 4 y.natAbs).length = 4 :=
      Digit.length_padded (by norm_num) (by omega)
    have value : ((y.natAbs : Nat) : Int) = y := by omega
    obtain ⟨d, more, row⟩ := List.exists_cons_of_length_pos some_digits
    obtain ⟨minus, plus, -⟩ := Decimal.Numeral.toChar_ne d
    unfold year
    rw [trimStart_text (List.length_pos_iff.mp some_digits)]
    dsimp only
    split
    · rename_i signed
      rw [row] at signed
      exact absurd (List.cons.inj signed).1 minus
    · rename_i signed
      rw [row] at signed
      exact absurd (List.cons.inj signed).1 plus
    · refine (bind_of_ok (read length.le) _).trans ?_
      refine (bind_of_ok rfl _).trans ?_
      rw [value]
      exact if_pos int32
  · rename_i outside
    have long : (Digit.padded 4 y.natAbs).length
        ≤ (Digit.text (Digit.padded 4 y.natAbs) ++ '-' :: rest).length.succ := by
      simp only [Digit.text, List.length_append, List.length_map]
      omega
    split
    · have value : -((y.natAbs : Nat) : Int) = y := by omega
      rw [List.cons_append, year, trimStart_cons _ rfl]
      refine (bind_of_ok (read long) _).trans ?_
      refine (bind_of_ok rfl _).trans ?_
      rw [value]
      exact if_pos int32
    · have value : ((y.natAbs : Nat) : Int) = y := by omega
      rw [List.cons_append, year, trimStart_cons _ rfl]
      refine (bind_of_ok (read long) _).trans ?_
      refine (bind_of_ok rfl _).trans ?_
      rw [value]
      exact if_pos int32

section Separators

variable {separator : Char → List Char → Except Fault (Unit × List Char)}

/-- A date is read as it has been written. -/
theorem dateParts_text (passes : ∀ rest, separator '-' ('-' :: rest) = .ok ((), rest)) {d : Date}
    (valid : d.Valid) (supported : Supported d.year) (rest : List Char) :
    dateParts separator (Instant.yearText d.year ++ '-' :: (Instant.twoDigits d.month
        ++ '-' :: (Instant.twoDigits d.day ++ rest))) = .ok (d, rest) := by
  have short := valid.day_le
  obtain ⟨from_january, upto_december, from_first, -⟩ := valid
  unfold dateParts
  refine (bind_of_ok (year_yearText supported _) _).trans ?_
  refine (bind_of_ok (passes _) _).trans ?_
  refine (bind_of_ok (roomyNumber_twoDigits (by omega) from_january upto_december _) _).trans ?_
  refine (bind_of_ok (passes _) _).trans ?_
  exact bind_of_ok (roomyNumber_twoDigits (by omega) from_first short _) _

/-- A time of day is read as it has been written. -/
theorem clockParts_text (passes : ∀ rest, separator ':' (':' :: rest) = .ok ((), rest))
    {hour minute second : Nat} (hours : hour ≤ 23) (minutes : minute ≤ 59) (seconds : second ≤ 60)
    (rest : List Char) :
    clockParts separator (Instant.twoDigits hour ++ ':' :: (Instant.twoDigits minute
        ++ ':' :: (Instant.twoDigits second ++ rest))) = .ok ((hour, minute, second), rest) := by
  unfold clockParts
  refine (bind_of_ok (roomyNumber_twoDigits (by omega) (Nat.zero_le _) hours _) _).trans ?_
  refine (bind_of_ok (passes _) _).trans ?_
  refine (bind_of_ok (roomyNumber_twoDigits (by omega) (Nat.zero_le _) minutes _) _).trans ?_
  refine (bind_of_ok (passes _) _).trans ?_
  exact bind_of_ok (roomyNumber_twoDigits (by omega) (Nat.zero_le _) seconds _) _

end Separators

/-- A fraction of up to nine places is read as nanoseconds. -/
theorem fraction_padded {places n : Nat} (some_places : 0 < places) (most : places ≤ 9)
    (short : n < 10 ^ places) {rest : List Char} (stop : NoDigit rest) :
    fraction (Digit.text (Digit.padded places n) ++ rest) = .ok (n * 10 ^ (9 - places), rest) := by
  have length := Digit.length_padded some_places short
  have fits : ((Digit.value (Digit.padded places n) : Nat) : Int) ≤ Int64.maxValue.toInt := by
    have small : n < 10 ^ 9 := short.trans_le (Nat.pow_le_pow_right (by norm_num) most)
    rw [Digit.value_padded]
    exact (by omega : (n : Int) ≤ 10 ^ 9).trans (by decide)
  have read := @number_text 1 9 _ rest (by omega) (by omega) (.inr stop) fits
  have behind : rest.dropWhile (fun c => (Digit.ofChar? c).isSome) = rest := by
    cases rest with
    | nil => rfl
    | cons c rest => rw [List.dropWhile_cons_of_neg (by simp [stop c rfl])]
  unfold fraction
  dsimp only
  rw [takeRow_take (by omega) (.inr stop)]
  refine (bind_of_ok read _).trans ?_
  dsimp only
  rw [behind, Digit.value_padded, length]
  rfl

/-- A fraction of so many places. The places behind it are cut off. -/
def fractionOf (places nanos : Nat) : List Char :=
  if places = 0 then []
  else '.' :: Digit.text (Digit.padded places (nanos / 10 ^ (9 - places)))

/-- A fraction is read as it has been written, if the places that are cut off are zeros. -/
theorem optionalFraction_fractionOf {places nanos : Nat} (most : places ≤ 9)
    (short : nanos < 1000000000) (exact_places : nanos % 10 ^ (9 - places) = 0) {c : Char}
    (no_digit : Digit.ofChar? c = none) (no_point : c ≠ '.') (rest : List Char) :
    optionalFraction (fractionOf places nanos ++ c :: rest) = .ok (nanos, c :: rest) := by
  unfold fractionOf
  split
  · rename_i none
    have whole : nanos = 0 := by
      rw [none] at exact_places
      omega
    rw [List.nil_append, whole, optionalFraction]
    intro more point
    exact no_point (List.cons.inj point).1
  · rename_i some_places
    have digits : nanos / 10 ^ (9 - places) < 10 ^ places := by
      rw [Nat.div_lt_iff_lt_mul (by positivity), ← pow_add, Nat.add_sub_cancel' most]
      exact short
    have read := fraction_padded (Nat.pos_of_ne_zero some_places) most digits
      (noDigit_cons rest no_digit)
    rwa [Nat.div_mul_cancel (Nat.dvd_of_mod_eq_zero exact_places)] at read

/-- The fraction that is printed has as few places as are exact. -/
theorem exists_places (nanos : Nat) :
    ∃ places, places ≤ 9 ∧ nanos % 10 ^ (9 - places) = 0 ∧
      Instant.fractionText nanos = fractionOf places nanos := by
  unfold Instant.fractionText
  split
  · rename_i none
    exact ⟨0, by norm_num, by rw [none, Nat.zero_mod], rfl⟩
  · split
    · rename_i milli
      exact ⟨3, by norm_num, milli, rfl⟩
    · split
      · rename_i micro
        exact ⟨6, by norm_num, micro, rfl⟩
      · exact ⟨9, by norm_num, Nat.mod_one nanos, by rw [fractionOf, if_neg (by norm_num)]; simp⟩

/-- Nanoseconds are read as they have been written. -/
theorem optionalFraction_fractionText {nanos : Nat} (short : nanos < 1000000000) {c : Char}
    (no_digit : Digit.ofChar? c = none) (no_point : c ≠ '.') (rest : List Char) :
    optionalFraction (Instant.fractionText nanos ++ c :: rest) = .ok (nanos, c :: rest) := by
  obtain ⟨places, most, exact_places, fraction⟩ := exists_places nanos
  rw [fraction]
  exact optionalFraction_fractionOf most short exact_places no_digit no_point rest

/-! ### Instants -/

/-- Both marks of UTC are read as no distance from it. -/
theorem zone_mark (mark : Instant.UtcMark) :
    zone (fun cs => .ok ((), cs.dropWhile fun c => c = ':' || Text.isBlank c)) mark.text
      = .ok (0, []) := by
  cases mark <;> decide

/-- The text of a clock in UTC. -/
def Moment.text (m : Moment) (mark : Instant.UtcMark) : List Char :=
  Instant.yearText m.date.year ++ '-' :: (Instant.twoDigits m.date.month
    ++ '-' :: (Instant.twoDigits m.date.day
    ++ 'T' :: (Instant.twoDigits m.hour
    ++ ':' :: (Instant.twoDigits m.minute
    ++ ':' :: (Instant.twoDigits m.second
    ++ (Instant.fractionText m.nanos ++ mark.text))))))

/-- The text of a clock in UTC is read as what the clock shows. -/
theorem readLenient_text {m : Moment} (valid : m.date.Valid) (supported : Supported m.date.year)
    (hours : m.hour ≤ 23) (minutes : m.minute ≤ 59) (seconds : m.second ≤ 60)
    (nanos : m.nanos < 1000000000) (mark : Instant.UtcMark) :
    readLenient (m.text mark) = m.toInstant 0 := by
  obtain ⟨c, more, marked, no_digit, no_point, visible⟩ : ∃ c more, mark.text = c :: more ∧
      Digit.ofChar? c = none ∧ c ≠ '.' ∧ Text.isBlank c = false := by
    cases mark
    · exact ⟨_, _, rfl, rfl, by decide, rfl⟩
    · exact ⟨_, _, rfl, rfl, by decide, rfl⟩
  have fraction := optionalFraction_fractionText nanos no_digit no_point more
  have unnamed : ¬ Text.asciiLower (mark.text.take 3) = ['u', 't', 'c'] := by
    cases mark <;> decide
  have zone := zone_mark mark
  unfold readLenient Moment.text
  refine (bind_of_ok (dateParts_text (roomyExpect_cons rfl) valid supported _) _).trans ?_
  refine (bind_of_ok rfl _).trans ?_
  refine (bind_of_ok (clockParts_text (roomyExpect_cons rfl) hours minutes seconds _) _).trans ?_
  rw [← marked] at fraction
  refine (bind_of_ok fraction _).trans ?_
  dsimp only
  rw [marked, trimStart_cons more visible, ← marked, if_neg unnamed]
  refine (bind_of_ok zone _).trans ?_
  rfl

namespace Instant

/-- What a clock in UTC shows at an instant. -/
def clock (t : Instant) : Moment :=
  let inDay := (t.secs % 86400).toNat
  let leap := 1000000000 ≤ t.nanos
  { date := Date.ofDays (t.secs / 86400)
    hour := inDay / 3600
    minute := inDay / 60 % 60
    second := if leap then inDay % 60 + 1 else inDay % 60
    nanos := if leap then t.nanos - 1000000000 else t.nanos }

theorem textChars_eq (t : Instant) (mark : UtcMark) : t.textChars mark = t.clock.text mark := by
  simp only [textChars, Moment.text, clock, List.append_assoc, List.cons_append]

/-- The clock shows second 60 within a leap second only, which comes behind second 59. -/
theorem second_clock (t : Instant) :
    (t.clock.second = 60 ∧ (t.secs % 86400).toNat % 60 = 59 ∧
        t.clock.nanos + 1000000000 = t.nanos) ∨
      (t.clock.second = (t.secs % 86400).toNat % 60 ∧ t.clock.nanos = t.nanos) := by
  have within_second := t.within_second
  dsimp only [clock]
  split
  · left
    omega
  · right
    exact ⟨rfl, rfl⟩

/-- The clock shows a time of day. -/
theorem clock_within (t : Instant) :
    t.clock.hour ≤ 23 ∧ t.clock.minute ≤ 59 ∧ t.clock.second ≤ 60 ∧ t.clock.nanos < 1000000000 := by
  have second := t.second_clock
  have hour : t.clock.hour = (t.secs % 86400).toNat / 3600 := rfl
  have minute : t.clock.minute = (t.secs % 86400).toNat / 60 % 60 := rfl
  have nanos : t.clock.nanos < 1000000000 := by
    have within_second := t.within_second
    dsimp only [clock]
    split <;> omega
  omega

/-- What the clock shows is the instant. -/
theorem toInstant_clock (t : Instant) : t.clock.toInstant 0 = .ok t := by
  have valid : t.clock.date.Valid := Date.valid_ofDays (t.secs / 86400)
  have supported : Supported t.clock.date.year := Date.year_ofDays t.supported.1 t.supported.2
  have days : t.clock.date.toDays = t.secs / 86400 := Date.toDays_ofDays (t.secs / 86400)
  have hour : t.clock.hour = (t.secs % 86400).toNat / 3600 := rfl
  have minute : t.clock.minute = (t.secs % 86400).toNat / 60 % 60 := rfl
  have second := t.second_clock
  have shown : (if t.clock.second = 60 then 59 else t.clock.second)
      = (t.secs % 86400).toNat % 60 := by
    split <;> omega
  have nanos : (if t.clock.second = 60 then t.clock.nanos + 1000000000 else t.clock.nanos)
      = t.nanos := by
    split <;> omega
  have secs : (t.clock.date.toDays * 86400 + (t.clock.hour * 3600 + t.clock.minute * 60
      + (t.secs % 86400).toNat % 60 : Nat) : Int) - 0 = t.secs := by
    rw [days, hour, minute]
    omega
  unfold Moment.toInstant
  rw [if_neg (not_not_intro ⟨valid, supported⟩), if_neg (by decide)]
  dsimp only
  rw [shown, nanos, secs, ofUnix?, dif_pos ⟨t.supported, t.within_second⟩]

/-- An instant is read from its text, in either way of writing that it is in UTC. -/
theorem readLenient_textChars (t : Instant) (mark : UtcMark) :
    readLenient (t.textChars mark) = .ok t := by
  have supported : Supported t.clock.date.year := Date.year_ofDays t.supported.1 t.supported.2
  obtain ⟨hours, minutes, seconds, nanos⟩ := t.clock_within
  rw [textChars_eq, readLenient_text (Date.valid_ofDays _) supported hours minutes seconds nanos,
    toInstant_clock]

end Instant

end Time

end PriceSignals
