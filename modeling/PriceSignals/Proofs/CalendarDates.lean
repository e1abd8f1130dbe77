/-
Module: PriceSignals.Proofs.CalendarDates
Purpose: Days and dates of the calendar. Every day has a date that the calendar has, and the number
  of that date is the day.
Main exports:
  Date.exists_marchYear, Date.toDays_ofDays, Date.valid_ofDays, Date.year_ofDays,
  Date.supported_of_year
-/
import PriceSignals.Time.Instant
import Mathlib.Tactic.IntervalCases

namespace PriceSignals.Time.Date

/-! ### Years that begin in March -/

/-- Years of 400, 100, 4 and 1 have 146097, 36524, 1461 and 365 days, and what is over. -/
theorem daysBeforeMarchYear_eq (era : Int) {century four one : Nat} (centuries : century ≤ 3)
    (fours : four ≤ 24) (ones : one ≤ 3) :
    daysBeforeMarchYear (400 * era + (100 * century + 4 * four + one : Nat))
      = 146097 * era + (36524 * century + 1461 * four + 365 * one : Nat) := by
  unfold daysBeforeMarchYear
  omega

/-- A year is a leap year if it ends four years that do not end a century, or ends four
centuries. -/
theorem isLeap_eq_true (era : Int) {century four : Nat}
    (last : (century ≤ 3 ∧ four ≤ 23) ∨ (century = 3 ∧ four = 24)) :
    isLeap (400 * era + (100 * century + 4 * four + 3 : Nat) + 1) = true := by
  simp only [isLeap, Bool.and_eq_true, Bool.or_eq_true, beq_iff_eq, bne_iff_ne]
  omega

/-- A day of 400 years lies in a century, in four years and in a year. Only the last year of four
may have a day 365, the first one being day 0, and of a century only if that is the last one. -/
theorem places_of_inEra {inEra : Nat} (inside : inEra < 146097) {century four one : Nat}
    (hcentury : min (inEra / 36524) 3 = century)
    (hfour : (inEra - century * 36524) / 1461 = four)
    (hone : min ((inEra - century * 36524) % 1461 / 365) 3 = one) :
    let inYear := (inEra - century * 36524) % 1461 - one * 365
    century ≤ 3 ∧ four ≤ 24 ∧ one ≤ 3 ∧
      inEra = 36524 * century + 1461 * four + 365 * one + inYear ∧
      (inYear < 365 ∨
        (inYear = 365 ∧ one = 3 ∧ ((century ≤ 3 ∧ four ≤ 23) ∨ (century = 3 ∧ four = 24)))) := by
  omega

/-- A day lies in a year that begins in March, and only a year with a leap day has a day 365. The
date has the month of the day and the place of the day in it. -/
theorem exists_marchYear (days : Int) :
    ∃ (year : Int) (inYear : Nat),
      days + epochOffset = daysBeforeMarchYear year + inYear ∧
        (inYear < 365 ∨ (inYear = 365 ∧ isLeap (year + 1) = true)) ∧
        ofDays days =
          (let m := (5 * inYear + 2) / 153
          let day := inYear - (153 * m + 2) / 5 + 1
          if m < 10 then { year, month := m + 3, day }
          else { year := year + 1, month := m - 9, day }) := by
  have inside : ((days + epochOffset) % 146097).toNat < 146097 := by omega
  obtain ⟨centuries, fours, ones, place, last⟩ := places_of_inEra inside rfl rfl rfl
  refine ⟨_, _, ?_, ?_, rfl⟩
  · rw [daysBeforeMarchYear_eq _ centuries fours ones]
    omega
  · rcases last with within_year | ⟨day, one, leap⟩
    · exact .inl within_year
    · rw [one]
      rw [one] at day
      exact .inr ⟨day, isLeap_eq_true _ leap⟩

/-! ### Dates of days -/

/-- The date of a day has the number of that day. -/
theorem toDays_ofDays (days : Int) : (ofDays days).toDays = days := by
  obtain ⟨year, inYear, count, last, date⟩ := exists_marchYear days
  have most : inYear ≤ 365 := by omega
  rw [date]
  clear date
  dsimp only
  split
  · rw [toDays]
    dsimp only
    rw [if_pos (by omega), if_pos (by omega)]
    omega
  · rw [toDays]
    dsimp only
    rw [if_neg (by omega), if_neg (by omega), Int.add_sub_cancel]
    omega

/-- February has at least 28 days. -/
theorem le_monthLength_two (year : Int) : 28 ≤ monthLength year 2 := by
  rw [monthLength, if_pos rfl]
  split <;> omega

/-- The calendar has the date of every day. -/
theorem valid_ofDays (days : Int) : (ofDays days).Valid := by
  obtain ⟨year, inYear, -, last, date⟩ := exists_marchYear days
  rw [date]
  clear date
  dsimp only
  generalize month : (5 * inYear + 2) / 153 = m
  have most : m ≤ 11 := by omega
  have february := le_monthLength_two (year + 1)
  rcases last with inside | ⟨rfl, leap⟩
  · interval_cases m <;> simp [Valid, monthLength] at * <;> omega
  · obtain rfl : m = 11 := by omega
    simp [Valid, monthLength, leap]

/-- No month has more than 31 days. -/
theorem Valid.day_le {d : Date} (valid : d.Valid) : d.day ≤ 31 := by
  refine valid.2.2.2.trans ?_
  unfold monthLength
  split
  · split <;> omega
  · split <;> omega

/-- Later years have more days before them. -/
theorem daysBeforeMarchYear_mono {y z : Int} (h : y ≤ z) :
    daysBeforeMarchYear y ≤ daysBeforeMarchYear z := by
  unfold daysBeforeMarchYear
  omega

/-- The days of the supported seconds lie in the supported years. -/
theorem year_ofDays {secs : Int} (first : Instant.minSecs ≤ secs) (last : secs ≤ Instant.maxSecs) :
    -262143 ≤ (ofDays (secs / 86400)).year ∧ (ofDays (secs / 86400)).year ≤ 262142 := by
  obtain ⟨year, inYear, count, inside, date⟩ := exists_marchYear (secs / 86400)
  have days : -96465292 ≤ secs / 86400 ∧ secs / 86400 ≤ 95026236 := by
    unfold Instant.minSecs at first
    unfold Instant.maxSecs at last
    omega
  have earlier (y : Int) : year ≤ y → daysBeforeMarchYear year ≤ daysBeforeMarchYear y :=
    daysBeforeMarchYear_mono
  have later (y : Int) : y ≤ year → daysBeforeMarchYear y ≤ daysBeforeMarchYear year :=
    daysBeforeMarchYear_mono
  have before_first := earlier (-262145)
  have in_first := earlier (-262144)
  have in_last := later 262142
  have behind_last := later 262143
  rw [show daysBeforeMarchYear (-262145) = -95746496 from rfl] at before_first
  rw [show daysBeforeMarchYear (-262144) = -95746130 from rfl] at in_first
  rw [show daysBeforeMarchYear 262142 = 95745399 from rfl] at in_last
  rw [show daysBeforeMarchYear 262143 = 95745764 from rfl] at behind_last
  have epoch : epochOffset = 719468 := rfl
  rw [date]
  clear date
  dsimp only
  split
  · dsimp only
    omega
  · dsimp only
    omega

/-- A year of four digits or fewer is supported, and so are all seconds in it. -/
theorem supported_of_year {secs : Int} (first : 0 ≤ (ofDays (secs / 86400)).year)
    (last : (ofDays (secs / 86400)).year ≤ 9999) :
    Instant.minSecs ≤ secs ∧ secs ≤ Instant.maxSecs := by
  obtain ⟨year, inYear, count, inside, date⟩ := exists_marchYear (secs / 86400)
  have around : -1 ≤ year ∧ year ≤ 9999 := by
    rw [date] at first last
    clear date
    dsimp only at first last
    split at first <;> split at last <;> dsimp only at first last <;> omega
  have earliest := daysBeforeMarchYear_mono around.1
  have latest := daysBeforeMarchYear_mono around.2
  rw [show daysBeforeMarchYear (-1) = -366 from rfl] at earliest
  rw [show daysBeforeMarchYear 9999 = 3652059 from rfl] at latest
  have epoch : epochOffset = 719468 := rfl
  unfold Instant.minSecs Instant.maxSecs
  omega

end PriceSignals.Time.Date
