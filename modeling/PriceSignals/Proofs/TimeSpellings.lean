/-
Module: PriceSignals.Proofs.TimeSpellings
Purpose: The texts that name one instant. It may be written as a clock shows it at any distance from
  UTC, with a fraction of any exact length and blanks around it. Texts without a distance are meant
  in UTC: no internet time is found in them before they are read as what they are.
Main exports:
  Zone, Moment.shown, Moment.Proper, Spelling, Spelling.text, Spelling.Fits, readInternet_text,
  readInternet_zone, Spelling.instant?_text, instant?_localText, instant?_dateText,
  spellings_agree
-/
import PriceSignals.Proofs.Columns
import PriceSignals.Proofs.InstantReadBack

namespace PriceSignals

namespace Time

/-! ### Distances from UTC -/

/-- How far a clock is ahead of UTC, or behind it. -/
structure Distance where
  behind : Bool
  hours : Nat
  minutes : Nat
  hours_le : hours ≤ 23
  minutes_le : minutes ≤ 59

namespace Distance

/-- In seconds, ahead of UTC. -/
def seconds (d : Distance) : Int :=
  (if d.behind then -1 else 1) * ((d.hours * 60 + d.minutes) * 60 : Nat)

/-- As `+HH:MM` or `-HH:MM`. -/
def text (d : Distance) : List Char :=
  (if d.behind then '-' else '+')
    :: (Instant.twoDigits d.hours ++ ':' :: Instant.twoDigits d.minutes)

theorem within_day (d : Distance) :
    -86400 < d.seconds ∧ d.seconds < 86400 ∧ d.seconds % 60 = 0 := by
  have hours := d.hours_le
  have minutes := d.minutes_le
  unfold seconds
  split <;> omega

end Distance

/-- How a text says in which time it is. -/
inductive Zone where
  | zulu
  | distance (d : Distance)

/-- How many seconds its clocks are ahead of UTC. -/
def Zone.offset : Zone → Int
  | zulu => 0
  | distance d => d.seconds

def Zone.text : Zone → List Char
  | zulu => ['Z']
  | distance d => d.text

theorem Zone.within_day (z : Zone) : -86400 < z.offset ∧ z.offset < 86400 ∧ z.offset % 60 = 0 := by
  cases z with
  | zulu => decide
  | distance d => exact d.within_day

/-- Two digits are a number below one hundred. -/
theorem exists_twoDigits {n : Nat} (small : n < 100) :
    ∃ a b : Digit, Instant.twoDigits n = [a.toChar, b.toChar] ∧ a.val * 10 + b.val = n := by
  have length := length_twoDigits small
  have value := Digit.value_padded 2 n
  obtain ⟨a, b, row⟩ := List.length_eq_two.mp length
  rw [row] at value
  exact ⟨a, b, by rw [Instant.twoDigits, row]; rfl, by simpa [Digit.value] using value⟩

/-- A distance is read as it has been written. -/
theorem zone_text (z : Zone) : zone (expect ':') z.text = .ok (z.offset, []) := by
  cases z with
  | zulu => rfl
  | distance d =>
      have hours := d.hours_le
      have minutes := d.minutes_le
      obtain ⟨h1, h2, hourText, hour⟩ := @exists_twoDigits d.hours (by omega)
      obtain ⟨m1, m2, minuteText, minute⟩ := @exists_twoDigits d.minutes (by omega)
      have below : ¬ 6 ≤ m1.val := by omega
      simp only [Zone.text, Distance.text, Zone.offset, Distance.seconds, hourText, minuteText]
      cases d.behind <;>
        simp [zone, Digit.ofChar?_toChar, expect, below, hour, minute, bind, Except.bind, pure,
          Except.pure]

/-! ### Clocks -/

/-- A year that four digits write. -/
def FourDigits (year : Int) : Prop := 0 ≤ year ∧ year ≤ 9999

theorem FourDigits.supported {year : Int} (h : FourDigits year) : Supported year := by
  unfold FourDigits at h
  unfold Supported
  omega

namespace Moment

/-- What a clock shows that is at a number of seconds. Nanoseconds above a second show a leap
second. -/
def shown (secs : Int) (nanos : Nat) : Moment :=
  let inDay := (secs % 86400).toNat
  let leap := 1000000000 ≤ nanos
  { date := Date.ofDays (secs / 86400)
    hour := inDay / 3600
    minute := inDay / 60 % 60
    second := if leap then inDay % 60 + 1 else inDay % 60
    nanos := if leap then nanos - 1000000000 else nanos }

/-- What a clock may show within the years of four digits. -/
structure Proper (m : Moment) : Prop where
  valid : m.date.Valid
  year : FourDigits m.date.year
  hours : m.hour ≤ 23
  minutes : m.minute ≤ 59
  seconds : m.second ≤ 60
  nanos : m.nanos < 1000000000

/-- A clock that is ahead of UTC shows a later time for the same instant. -/
theorem toInstant_ahead {m : Moment} {t u : Instant} {offset : Int} (here : m.toInstant 0 = .ok u)
    (low : -86400 < offset) (high : offset < 86400) (secs : u.secs = t.secs + offset)
    (nanos : u.nanos = t.nanos) : m.toInstant offset = .ok t := by
  unfold toInstant at here ⊢
  split at here
  · cases here
  · rename_i valid
    rw [if_neg (by decide)] at here
    rw [if_neg valid, if_neg (not_not_intro ⟨low, high⟩)]
    dsimp only at here ⊢
    split at here
    · rename_i found
      obtain rfl := Except.ok.inj here
      obtain ⟨onClock, inSecond⟩ := Instant.ofUnix?_eq_some_iff.mp found
      have back := Instant.ofUnix?_eq_some_iff.mpr ⟨eq_sub_of_add_eq secs.symm, nanos.symm⟩
      rw [onClock, inSecond, Int.sub_zero] at back
      rw [back]
    · cases here

end Moment

namespace Instant

theorem clock_eq_shown (t : Instant) : t.clock = Moment.shown t.secs t.nanos := rfl

theorem proper_clock {t : Instant} (year : FourDigits t.clock.date.year) : t.clock.Proper := by
  obtain ⟨hours, minutes, seconds, nanos⟩ := t.clock_within
  exact ⟨Date.valid_ofDays _, year, hours, minutes, seconds, nanos⟩

/-- A clock at a whole number of minutes from UTC shows the instant, if its year has four digits. -/
theorem shown_ahead (t : Instant) {offset : Int} (low : -86400 < offset) (high : offset < 86400)
    (whole : offset % 60 = 0)
    (year : FourDigits (Moment.shown (t.secs + offset) t.nanos).date.year) :
    (Moment.shown (t.secs + offset) t.nanos).Proper ∧
      (Moment.shown (t.secs + offset) t.nanos).toInstant offset = .ok t := by
  have within_second := t.within_second
  -- The clock shows what one in UTC shows that much later. Whole minutes keep a leap second at the
  -- end of its minute.
  have within : t.nanos < 1000000000 ∨ ((t.secs + offset) % 60 = 59 ∧ t.nanos < 2000000000) := by
    omega
  let u : Instant := ⟨t.secs + offset, t.nanos, Date.supported_of_year year.1 year.2, within⟩
  have same : u.clock = Moment.shown (t.secs + offset) t.nanos := rfl
  rw [← same] at year ⊢
  exact ⟨proper_clock year, Moment.toInstant_ahead u.toInstant_clock low high rfl rfl⟩

end Instant

/-! ### Texts -/

/-- A date as `YYYY-MM-DD`. -/
def Date.text (d : Date) : List Char :=
  Instant.yearText d.year ++ '-' :: (Instant.twoDigits d.month ++ '-' :: Instant.twoDigits d.day)

/-- What a clock shows up to its seconds, as `YYYY-MM-DDTHH:MM:SS`. -/
def Moment.localText (m : Moment) : List Char :=
  m.date.text ++ 'T' :: (Instant.twoDigits m.hour ++ ':' :: (Instant.twoDigits m.minute
    ++ ':' :: Instant.twoDigits m.second))

/-- The first moment of a date. -/
def Date.midnight (d : Date) : Moment :=
  { date := d, hour := 0, minute := 0, second := 0, nanos := 0 }

/-- One of the ways in which an instant can be written. -/
structure Spelling where
  zone : Zone
  places : Nat
  front : List Char
  back : List Char

namespace Spelling

/-- What the clocks of its zone show at an instant. -/
def moment (w : Spelling) (t : Instant) : Moment := .shown (t.secs + w.zone.offset) t.nanos

/-- The text of an instant without the blanks around it. -/
def core (w : Spelling) (t : Instant) : List Char :=
  (w.moment t).localText ++ (fractionOf w.places (w.moment t).nanos ++ w.zone.text)

def text (w : Spelling) (t : Instant) : List Char := w.front ++ (w.core t ++ w.back)

/-- An instant can be written so: four digits write the year, the places are enough for its
nanoseconds, and there are only blanks around the text. -/
structure Fits (w : Spelling) (t : Instant) : Prop where
  year : FourDigits (w.moment t).date.year
  places : w.places ≤ 9
  exact_places : (w.moment t).nanos % 10 ^ (9 - w.places) = 0
  front : ∀ c ∈ w.front, Text.isBlank c = true
  back : ∀ c ∈ w.back, Text.isBlank c = true

end Spelling

/-! ### Internet times -/

theorem expect_cons (c : Char) (rest : List Char) : expect c (c :: rest) = .ok ((), rest) :=
  if_pos rfl

/-- A year of four digits is read as it has been written. -/
theorem number_yearText {y : Int} (short : FourDigits y) (rest : List Char) :
    number 4 4 (Instant.yearText y ++ rest) = .ok (y.natAbs, rest) := by
  obtain ⟨low, high⟩ := short
  have length : (Digit.padded 4 y.natAbs).length = 4 :=
    Digit.length_padded (by norm_num) (by omega)
  have word : ((Digit.value (Digit.padded 4 y.natAbs) : Nat) : Int) ≤ Int64.maxValue.toInt := by
    rw [Digit.value_padded]
    exact (by omega : (y.natAbs : Int) ≤ 9999).trans (by decide)
  have read := @number_text 4 4 _ rest length.ge length.le (.inl length) word
  rw [Digit.value_padded] at read
  unfold Instant.yearText
  dsimp only
  rwa [if_pos ⟨low, high⟩]

/-- What is read of an internet time behind its seconds. -/
def internetEnding (m : Moment) (cs : List Char) : Except Fault Instant := do
  let (nanos, cs) ← optionalFraction cs
  let (offset, cs) ← zone (expect ':') cs
  if ¬ (-86400 < offset ∧ offset < 86400) then throw .outOfRange
  if ¬ cs.isEmpty then throw .tooLong
  Moment.toInstant { m with nanos } offset

/-- The date and the time of day of an internet time are read as they have been written. -/
theorem readInternet_text {m : Moment} (proper : m.Proper) (rest : List Char) :
    readInternet (m.localText ++ rest) = internetEnding m rest := by
  have short := proper.valid.day_le
  obtain ⟨from_january, upto_december, from_first, -⟩ := proper.valid
  have year : ((m.date.year.natAbs : Nat) : Int) = m.date.year := by
    have first := proper.year.1
    omega
  have hours := proper.hours
  have minutes := proper.minutes
  have seconds := proper.seconds
  have two {low high n : Nat} (most : high < 100) (from_low : low ≤ n) (upto_high : n ≤ high)
      (rest : List Char) :
      ranged low high (number 2 2) (Instant.twoDigits n ++ rest) = .ok (n, rest) :=
    ranged_of_ok (number_twoDigits (by norm_num) (by omega) rest) from_low upto_high
  unfold readInternet Moment.localText Date.text
  simp only [List.append_assoc, List.cons_append]
  refine (bind_of_ok (number_yearText proper.year _) _).trans ?_
  refine (bind_of_ok (expect_cons '-' _) _).trans ?_
  refine (bind_of_ok (two (by norm_num) from_january upto_december _) _).trans ?_
  refine (bind_of_ok (expect_cons '-' _) _).trans ?_
  refine (bind_of_ok (two (by norm_num) from_first short _) _).trans ?_
  refine (bind_of_ok rfl _).trans ?_
  refine (bind_of_ok (two (by norm_num) (Nat.zero_le _) hours _) _).trans ?_
  refine (bind_of_ok (expect_cons ':' _) _).trans ?_
  refine (bind_of_ok (two (by norm_num) (Nat.zero_le _) minutes _) _).trans ?_
  refine (bind_of_ok (expect_cons ':' _) _).trans ?_
  refine (bind_of_ok (two (by norm_num) (Nat.zero_le _) seconds _) _).trans ?_
  dsimp only
  -- The year has been read as a natural number.
  rw [year]
  rfl

/-- A distance does not go on with the fraction in front of it. -/
theorem Zone.exists_text (z : Zone) :
    ∃ c rest, z.text = c :: rest ∧ Digit.ofChar? c = none ∧ c ≠ '.' := by
  cases z with
  | zulu => exact ⟨_, _, rfl, rfl, by decide⟩
  | distance d =>
      refine ⟨_, _, rfl, ?_, ?_⟩
      · split <;> rfl
      · split <;> decide

/-- A clock in a zone is read as the instant at which it shows that. -/
theorem readInternet_zone {m : Moment} (proper : m.Proper) {t : Instant} (z : Zone)
    (shows : m.toInstant z.offset = .ok t) {places : Nat} (most : places ≤ 9)
    (exact_places : m.nanos % 10 ^ (9 - places) = 0) :
    readInternet (m.localText ++ (fractionOf places m.nanos ++ z.text)) = .ok t := by
  obtain ⟨c, rest, marked, no_digit, no_point⟩ := z.exists_text
  have fraction := optionalFraction_fractionOf most proper.nanos exact_places no_digit no_point rest
  rw [← marked] at fraction
  obtain ⟨low, high, -⟩ := z.within_day
  rw [readInternet_text proper, internetEnding, bind_of_ok fraction]
  dsimp only
  rw [bind_of_ok (zone_text z)]
  dsimp only
  rw [if_neg (not_not_intro ⟨low, high⟩)]
  exact shows

/-! ### Times and dates without a distance -/

/-- Without a distance from UTC there is no internet time. -/
theorem readInternet_localText {m : Moment} (proper : m.Proper) :
    readInternet m.localText = .error .tooShort := by
  have read := readInternet_text proper []
  rwa [List.append_nil] at read

/-- A date is no internet time. -/
theorem readInternet_dateText {d : Date} (valid : d.Valid) (year : FourDigits d.year) :
    readInternet d.text = .error .tooShort := by
  have short := valid.day_le
  obtain ⟨from_january, upto_december, from_first, -⟩ := valid
  have month : ranged 1 12 (number 2 2)
      (Instant.twoDigits d.month ++ '-' :: (Instant.twoDigits d.day ++ [])) = .ok (d.month, _) :=
    ranged_of_ok (number_twoDigits (by norm_num) (by omega) _) from_january upto_december
  have day : ranged 1 31 (number 2 2) (Instant.twoDigits d.day ++ []) = .ok (d.day, []) :=
    ranged_of_ok (number_twoDigits (by norm_num) (by omega) []) from_first short
  unfold readInternet Date.text
  rw [← List.append_nil (Instant.twoDigits d.day)]
  refine (bind_of_ok (number_yearText year _) _).trans ?_
  refine (bind_of_ok (expect_cons '-' _) _).trans ?_
  refine (bind_of_ok month _).trans ?_
  refine (bind_of_ok (expect_cons '-' _) _).trans ?_
  refine (bind_of_ok day _).trans ?_
  rfl

theorem dateParts_dateText {d : Date} (valid : d.Valid) (year : FourDigits d.year)
    (rest : List Char) : dateParts expect (d.text ++ rest) = .ok (d, rest) := by
  have read := dateParts_text (expect_cons '-') valid year.supported rest
  simpa only [Date.text, List.append_assoc, List.cons_append] using read

/-- A time without a distance from UTC is read as what a clock in UTC shows. -/
theorem readLocal_localText {m : Moment} (proper : m.Proper) (whole : m.nanos = 0) :
    readLocal m.localText = m.toInstant 0 := by
  have clock := clockParts_text (expect_cons ':') proper.hours proper.minutes proper.seconds []
  rw [List.append_nil] at clock
  unfold readLocal Moment.localText
  refine (bind_of_ok (dateParts_dateText proper.valid proper.year _) _).trans ?_
  refine (bind_of_ok (expect_cons 'T' _) _).trans ?_
  refine (bind_of_ok clock _).trans ?_
  dsimp only
  rw [← whole]
  rfl

/-- A date has no time of day. -/
theorem readLocal_dateText {d : Date} (valid : d.Valid) (year : FourDigits d.year) :
    readLocal d.text = .error .tooShort := by
  have read := dateParts_dateText valid year []
  rw [List.append_nil] at read
  unfold readLocal
  exact bind_of_ok read _

/-- A date is read as its midnight in UTC. -/
theorem readDate_dateText {d : Date} (valid : d.Valid) (year : FourDigits d.year) :
    readDate d.text = d.midnight.toInstant 0 := by
  have read := dateParts_dateText valid year []
  rw [List.append_nil] at read
  unfold readDate
  exact bind_of_ok read _

/-! ### Reading a text of any kind -/

theorem isBlank_twoDigits (n : Nat) : ∀ c ∈ Instant.twoDigits n, Text.isBlank c = false :=
  fun c member => Decimal.isBlank_digits c member

theorem isBlank_dateText {d : Date} (year : FourDigits d.year) :
    ∀ c ∈ d.text, Text.isBlank c = false := by
  have plain : Instant.yearText d.year = Digit.text (Digit.padded 4 d.year.natAbs) := if_pos year
  intro c member
  simp only [Date.text, plain, List.mem_append, List.mem_cons] at member
  rcases member with digit | rfl | digit | rfl | digit
  · exact Decimal.isBlank_digits c digit
  · decide
  · exact isBlank_twoDigits _ c digit
  · decide
  · exact isBlank_twoDigits _ c digit

theorem isBlank_localText {m : Moment} (year : FourDigits m.date.year) :
    ∀ c ∈ m.localText, Text.isBlank c = false := by
  intro c member
  simp only [Moment.localText, List.mem_append, List.mem_cons] at member
  rcases member with date | rfl | digit | rfl | digit | rfl | digit
  · exact isBlank_dateText year c date
  · decide
  · exact isBlank_twoDigits _ c digit
  · decide
  · exact isBlank_twoDigits _ c digit
  · decide
  · exact isBlank_twoDigits _ c digit

theorem isBlank_fractionOf (places nanos : Nat) :
    ∀ c ∈ fractionOf places nanos, Text.isBlank c = false := by
  intro c member
  unfold fractionOf at member
  split at member
  · cases member
  · rcases List.mem_cons.mp member with rfl | digit
    · decide
    · exact Decimal.isBlank_digits c digit

theorem Zone.isBlank_text (z : Zone) : ∀ c ∈ z.text, Text.isBlank c = false := by
  intro c member
  cases z with
  | zulu =>
      obtain rfl := List.mem_singleton.mp member
      decide
  | distance d =>
      simp only [Zone.text, Distance.text, List.mem_append, List.mem_cons] at member
      rcases member with rfl | digit | rfl | digit
      · split <;> decide
      · exact isBlank_twoDigits _ c digit
      · decide
      · exact isBlank_twoDigits _ c digit

/-- An internet time is found before anything else in a text. -/
theorem instant?_of_internet {cs : List Char} {t : Instant}
    (read : readInternet (Text.trim cs) = .ok t) : instant? cs = some t := by
  rw [instant?, read]
  rfl

namespace Spelling

variable {w : Spelling} {t : Instant}

theorem isBlank_core (fits : w.Fits t) : ∀ c ∈ w.core t, Text.isBlank c = false := by
  intro c member
  simp only [core, List.mem_append] at member
  rcases member with clock | fraction | zone
  · exact isBlank_localText fits.year c clock
  · exact isBlank_fractionOf _ _ c fraction
  · exact w.zone.isBlank_text c zone

theorem readInternet_core (fits : w.Fits t) : readInternet (w.core t) = .ok t := by
  obtain ⟨low, high, whole⟩ := w.zone.within_day
  obtain ⟨proper, shows⟩ := t.shown_ahead low high whole fits.year
  exact readInternet_zone proper w.zone shows fits.places fits.exact_places

/-- An instant is read from each of its spellings. -/
theorem instant?_text (fits : w.Fits t) : instant? (w.text t) = some t := by
  have clean := isBlank_core fits
  apply instant?_of_internet
  rw [text, Text.trim_surrounded (w.core t) fits.front fits.back, Text.trim_of_not_blank clean]
  exact readInternet_core fits

end Spelling

/-- A time without a distance is read as what a clock in UTC shows. -/
theorem instant?_localText {m : Moment} (proper : m.Proper) (whole : m.nanos = 0) {t : Instant}
    (shows : m.toInstant 0 = .ok t) : instant? m.localText = some t := by
  rw [instant?, Text.trim_of_not_blank (isBlank_localText proper.year),
    readInternet_localText proper, readLocal_localText proper whole, shows]
  rfl

/-- A date is read as its midnight, after both kinds of times have been tried. -/
theorem instant?_dateText {d : Date} (valid : d.Valid) (year : FourDigits d.year) {t : Instant}
    (shows : d.midnight.toInstant 0 = .ok t) : instant? d.text = some t := by
  rw [instant?, Text.trim_of_not_blank (isBlank_dateText year), readInternet_dateText valid year,
    readLocal_dateText valid year, readDate_dateText valid year, shows]
  rfl

/-! ### Dates of annotated bars -/

/-- No distance at all. -/
def Distance.zero : Distance := ⟨false, 0, 0, by norm_num, by norm_num⟩

theorem Distance.text_zero : Distance.zero.text = Instant.UtcMark.offset.text := by
  have digits : Instant.twoDigits 0 = ['0', '0'] := by
    rw [Instant.twoDigits, Digit.padded, Digit.ofNat]
    rfl
  rw [Distance.text, Distance.zero, digits]
  rfl

/-- The text of an instant is one of its spellings if four digits write its year. -/
theorem exists_spelling {t : Instant} (year : FourDigits t.clock.date.year) :
    ∃ w : Spelling, w.Fits t ∧ t.textChars .offset = w.core t := by
  obtain ⟨places, most, exact_places, fraction⟩ := exists_places t.clock.nanos
  let w : Spelling := ⟨.distance .zero, places, [], []⟩
  have here : w.moment t = t.clock := by
    have zero : w.zone.offset = 0 := rfl
    rw [Spelling.moment, zero, Int.add_zero, t.clock_eq_shown]
  refine ⟨w, ⟨by rwa [here], most, by rwa [here], nofun, nofun⟩, ?_⟩
  have zone : w.zone.text = Instant.UtcMark.offset.text := Distance.text_zero
  have shown : fractionOf w.places t.clock.nanos = Instant.fractionText t.clock.nanos :=
    fraction.symm
  rw [Instant.textChars_eq, Spelling.core, here, shown, zone]
  simp only [Moment.text, Moment.localText, Date.text, List.append_assoc, List.cons_append]

end Time

/-! ### Dates as times -/

namespace Decimal.Numeral

/-- Digits with a dash behind them are no number. -/
theorem no_number_of_dash {row : List Digit} (some_digits : row ≠ []) (rest : List Char) :
    integer? (Digit.text row ++ '-' :: rest) = none ∧
      float? (Digit.text row ++ '-' :: rest) = none := by
  have unsigned := splitSign_text false some_digits ('-' :: rest)
  have digits := Digit.takeRow_text row ('-' :: rest)
  have stop : Digit.takeRow Digit.ofChar? ('-' :: rest) = ([], '-' :: rest) := rfl
  rw [stop, List.append_nil] at digits
  rw [if_neg (by decide), List.nil_append] at unsigned
  constructor
  case left =>
    unfold integer?
    rw [unsigned]
    dsimp only
    rw [digits]
    cases row <;> rfl
  case right =>
    have none : literal? (Digit.text row ++ '-' :: rest) = none := by
      unfold literal?
      rw [unsigned]
      dsimp only
      rw [digits]
      cases row <;> rfl
    have letters : ∀ d : Digit, d.toChar.toLower ≠ 'i' ∧ d.toChar.toLower ≠ 'n' := by decide
    unfold float?
    rw [none, unsigned]
    cases row with
    | nil => exact absurd rfl some_digits
    | cons d row =>
        obtain ⟨no_i, no_n⟩ := letters d
        simp [Digit.text, Text.asciiLower, no_i, no_n]

end Decimal.Numeral

open Time

/-- The date of an annotated bar is the instant of the bar. -/
theorem Composer.date_of_annotated {c : Composer} {bars : List Bar} {i : Nat} {a : Annotated}
    (found : (c.annotate bars)[i]? = some a) : a.date = a.bar.instant? := by
  have date : (bars.map (·.instant?))[i]? = some a.date := by
    rw [← c.annotate_date, List.getElem?_map, found, Option.map_some]
  have bar : bars[i]? = some a.bar := by
    rw [← c.annotate_bar bars, List.getElem?_map, found, Option.map_some]
  rw [List.getElem?_map, bar, Option.map_some] at date
  exact (Option.some.inj date).symm

/-- The cell of a date, taken for the time of a bar in a text or in a table, is that date. -/
theorem instant?_of_dateCell {t : Instant} (year : FourDigits t.clock.date.year) :
    (BarTime.text (String.ofList (t.textChars .offset))).instant? = some t ∧
      (BarTime.ofText (Text.trim (t.textChars .offset))).instant? = some t := by
  obtain ⟨w, fits, spelled⟩ := exists_spelling year
  have clean := Text.trim_of_not_blank (Spelling.isBlank_core fits)
  have read : instant? (t.textChars .offset) = some t := by
    apply instant?_of_internet
    rw [spelled, clean]
    exact Spelling.readInternet_core fits
  have text : (BarTime.text (String.ofList (t.textChars .offset))).instant? = some t := by
    rw [BarTime.instant?, String.toList_ofList, read]
  have some_digits : Digit.padded 4 t.clock.date.year.natAbs ≠ [] := by
    simp [Digit.padded, List.ne_nil_of_length_pos (Digit.length_ofNat _).1]
  obtain ⟨rest, dashed⟩ : ∃ rest, t.textChars .offset
      = Digit.text (Digit.padded 4 t.clock.date.year.natAbs) ++ '-' :: rest := by
    have plain : Instant.yearText t.clock.date.year
        = Digit.text (Digit.padded 4 t.clock.date.year.natAbs) := if_pos year
    rw [Instant.textChars_eq, Moment.text, plain]
    exact ⟨_, rfl⟩
  obtain ⟨no_integer, no_float⟩ := Decimal.Numeral.no_number_of_dash some_digits rest
  refine ⟨text, ?_⟩
  rw [spelled, clean, ← spelled, BarTime.ofText, dashed, no_integer, no_float, ← dashed]
  exact text

/-- All spellings of an instant agree, for any second whose year in UTC has four digits. With its
nanoseconds it is read from the text of each clock that shows it. The text without a distance is read
as the second itself, and so is the date at midnight. An annotated bar in that second has a date cell
that is read as the instant of the bar, also within a leap second. -/
theorem spellings_agree {s : Int64} {nanos : Nat} (short : nanos < 1000000000)
    (year : FourDigits (Date.ofDays (s.toInt / 86400)).year) :
    (∃ t : Instant, t.secs = s.toInt ∧ t.nanos = nanos ∧
        ∀ w : Spelling, w.Fits t → (BarTime.text (String.ofList (w.text t))).instant? = some t) ∧
      (∃ whole : Instant, (BarTime.unix s).instant? = some whole ∧
        (BarTime.text (String.ofList (Moment.shown s.toInt 0).localText)).instant? = some whole ∧
        (s.toInt % 86400 = 0 →
          (BarTime.text (String.ofList (Date.ofDays (s.toInt / 86400)).text)).instant?
            = some whole)) ∧
      ∀ (c : Composer) (bars : List Bar) (i : Nat) (a : Annotated),
        (c.annotate bars)[i]? = some a → ∀ t, a.bar.instant? = some t → t.secs = s.toInt →
          ∃ cell, (Annotated.columnNames.zip a.cells).lookup "date" = some cell ∧
            (BarTime.text (String.ofList cell)).instant? = some t ∧
            (BarTime.ofText (Text.trim cell)).instant? = some t := by
  have supported := Date.supported_of_year year.1 year.2
  refine ⟨?_, ?_, ?_⟩
  case refine_1 =>
    refine ⟨⟨s.toInt, nanos, supported, .inl short⟩, rfl, rfl, fun w fits => ?_⟩
    rw [BarTime.instant?, String.toList_ofList]
    exact Spelling.instant?_text fits
  case refine_2 =>
    let whole : Instant := ⟨s.toInt, 0, supported, .inl (by norm_num)⟩
    have shows : (Moment.shown s.toInt 0).toInstant 0 = .ok whole := whole.toInstant_clock
    have proper : (Moment.shown s.toInt 0).Proper := @Instant.proper_clock whole year
    refine ⟨whole, Instant.ofUnix?_eq_some_iff.mpr ⟨rfl, rfl⟩, ?_, ?_⟩
    · rw [BarTime.instant?, String.toList_ofList]
      exact instant?_localText proper rfl shows
    · intro midnight
      have first : Moment.shown s.toInt 0 = (Date.ofDays (s.toInt / 86400)).midnight := by
        rw [Moment.shown, midnight]
        rfl
      rw [first] at shows
      rw [BarTime.instant?, String.toList_ofList]
      exact instant?_dateText proper.valid year shows
  case refine_3 =>
    intro c bars i a found t denotes same
    have date : a.date = some t := (Composer.date_of_annotated found).trans denotes
    have cell : (Annotated.columnNames.zip a.cells).lookup "date" = some (t.textChars .offset) := by
      rw [Annotated.cells, date]
      rfl
    rw [← same] at year
    exact ⟨_, cell, instant?_of_dateCell year⟩

/-- Half a second before 1970 in UTC, on a clock that already shows the evening of the next day. -/
theorem spellings_agree_before_1970 :
    let w : Spelling := ⟨.distance ⟨false, 23, 59, by decide, by decide⟩, 3, [' '], ['\n']⟩
    ∃ t : Instant, t.secs = -1 ∧ t.nanos = 500000000 ∧
      w.text t = " 1970-01-01T23:58:59.500+23:59\n".toList ∧
      (BarTime.text " 1970-01-01T23:58:59.500+23:59\n").instant? = some t := by
  intro w
  obtain ⟨⟨t, secs, nanos, reads⟩, -⟩ :=
    @spellings_agree (-1) 500000000 (by decide) ⟨by decide, by decide⟩
  obtain rfl : t = ⟨-1, 500000000, by decide, by decide⟩ := by
    cases t
    cases secs
    cases nanos
    rfl
  have text : w.text ⟨-1, 500000000, by decide, by decide⟩
      = " 1970-01-01T23:58:59.500+23:59\n".toList := by decide +kernel
  have fits : w.Fits ⟨-1, 500000000, by decide, by decide⟩ :=
    ⟨⟨by decide, by decide⟩, by decide, by decide, by simp [w, Text.isBlank],
      by simp [w, Text.isBlank]⟩
  have read := reads w fits
  rw [text, String.ofList_toList] at read
  exact ⟨_, rfl, rfl, text, read⟩

end PriceSignals
