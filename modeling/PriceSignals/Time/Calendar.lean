/-
Module: PriceSignals.Time.Calendar
Purpose: Dates of the Gregorian calendar, extended to all years, and their day numbers.
Main exports:
  Date, Date.Valid, Date.toDays, Date.ofDays
-/

namespace PriceSignals.Time

/-- A year, month and day. Year zero is the year before year one. -/
structure Date where
  year : Int
  month : Nat
  day : Nat
deriving Repr, DecidableEq

namespace Date

/-- Whether a year has a 29th of February. -/
def isLeap (year : Int) : Bool :=
  year % 4 == 0 && (year % 100 != 0 || year % 400 == 0)

/-- How many days a month has. -/
def monthLength (year : Int) (month : Nat) : Nat :=
  if month = 2 then (if isLeap year then 29 else 28)
  else if month = 4 ∨ month = 6 ∨ month = 9 ∨ month = 11 then 30
  else 31

/-- A date that the calendar has. -/
def Valid (d : Date) : Prop :=
  1 ≤ d.month ∧ d.month ≤ 12 ∧ 1 ≤ d.day ∧ d.day ≤ monthLength d.year d.month

instance (d : Date) : Decidable d.Valid := by unfold Valid; infer_instance

/-!
Days are counted through years that begin in March, so that the leap day is the last day of its
year. Such a year has the months March to February with the numbers 0 to 11, and month `n`
begins `(153 * n + 2) / 5` days after the first of March.
-/

/-- Days from the first of March of year zero to the first of January 1970. -/
def epochOffset : Int := 719468

/-- Days from the first of March of year zero to the first of March of a year. -/
def daysBeforeMarchYear (year : Int) : Int :=
  365 * year + year / 4 - year / 100 + year / 400

/-- The number of a day, counted from 1970-01-01. -/
def toDays (d : Date) : Int :=
  let afterFebruary := 2 < d.month
  let year := if afterFebruary then d.year else d.year - 1
  let n := if afterFebruary then d.month - 3 else d.month + 9
  daysBeforeMarchYear year + ((153 * n + 2) / 5 : Nat) + d.day - 1 - epochOffset

/-- The date of a day counted from 1970-01-01. Whole periods of 400, 100, 4 and 1 years are
taken off in turn; the last century of a period and the last year of four may be a day longer. -/
def ofDays (days : Int) : Date :=
  let n := days + epochOffset
  let era := n / 146097
  let inEra := (n % 146097).toNat
  let century := min (inEra / 36524) 3
  let inCentury := inEra - century * 36524
  let four := inCentury / 1461
  let inFour := inCentury % 1461
  let one := min (inFour / 365) 3
  let inYear := inFour - one * 365
  let year : Int := 400 * era + (100 * century + 4 * four + one : Nat)
  let m := (5 * inYear + 2) / 153
  let day := inYear - (153 * m + 2) / 5 + 1
  if m < 10 then { year, month := m + 3, day } else { year := year + 1, month := m - 9, day }

end Date

end PriceSignals.Time
