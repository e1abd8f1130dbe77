/-
Module: PriceSignals.Time.Instant
Purpose: Points in time, their order, and their text.
Main exports:
  Instant, Instant.ofUnix?, Instant.ofUnix?_of_outside, Instant.before, UtcMark, Instant.text
-/
import PriceSignals.Decimal.Digit
import PriceSignals.Time.Calendar

namespace PriceSignals.Time

/-- The first second of the year -262143. -/
def Instant.minSecs : Int := -8334601228800

/-- The last second of the year 262142. -/
def Instant.maxSecs : Int := 8210266876799

/-- A point in time: whole seconds since 1970-01-01 00:00:00 UTC and nanoseconds. Within a leap
second the seconds are those of the second before, and the nanoseconds go on from 10^9. -/
structure Instant where
  secs : Int
  nanos : Nat
  /-- It lies in the years that are supported. -/
  supported : Instant.minSecs ≤ secs ∧ secs ≤ Instant.maxSecs
  /-- Leap seconds stand at the end of a minute. -/
  within_second : nanos < 1000000000 ∨ (secs % 60 = 59 ∧ nanos < 2000000000)
deriving Repr, DecidableEq

namespace Instant

/-- The instant of seconds and nanoseconds, if there is one. -/
def ofUnix? (secs : Int) (nanos : Nat) : Option Instant :=
  if h : (minSecs ≤ secs ∧ secs ≤ maxSecs) ∧
      (nanos < 1000000000 ∨ (secs % 60 = 59 ∧ nanos < 2000000000)) then
    some { secs, nanos, supported := h.1, within_second := h.2 }
  else none

/-- Outside the supported years there are no instants. -/
theorem ofUnix?_of_outside {secs : Int} (outside : secs < minSecs ∨ maxSecs < secs) (nanos : Nat) :
    ofUnix? secs nanos = none :=
  dif_neg (by omega)

/-- The order of time. -/
def before (a b : Instant) : Bool :=
  a.secs < b.secs || (a.secs == b.secs && a.nanos < b.nanos)

/-! ### Text -/

/-- How the text of an instant says that it is in UTC. -/
inductive UtcMark where
  | zulu
  | offset
deriving Repr, DecidableEq

/-- The text of the mark. -/
def UtcMark.text : UtcMark → List Char
  | .zulu => ['Z']
  | .offset => ['+', '0', '0', ':', '0', '0']

/-- A year with at least four digits; outside 0 to 9999 its sign is always shown. -/
def yearText (year : Int) : List Char :=
  let digits := Digit.text (Digit.padded 4 year.natAbs)
  if 0 ≤ year ∧ year ≤ 9999 then digits
  else (if year < 0 then '-' else '+') :: digits

/-- A number below one hundred with two digits. -/
def twoDigits (n : Nat) : List Char := Digit.text (Digit.padded 2 n)

/-- Nanoseconds as a fraction of none, three, six or nine digits, as few as are exact. -/
def fractionText (nanos : Nat) : List Char :=
  if nanos = 0 then []
  else if nanos % 1000000 = 0 then '.' :: Digit.text (Digit.padded 3 (nanos / 1000000))
  else if nanos % 1000 = 0 then '.' :: Digit.text (Digit.padded 6 (nanos / 1000))
  else '.' :: Digit.text (Digit.padded 9 nanos)

/-- The text of an instant in UTC as RFC 3339 writes it. A leap second is second 60. -/
def textChars (mark : UtcMark) (t : Instant) : List Char :=
  let date := Date.ofDays (t.secs / 86400)
  let inDay := (t.secs % 86400).toNat
  let leap := 1000000000 ≤ t.nanos
  let second := if leap then inDay % 60 + 1 else inDay % 60
  let nanos := if leap then t.nanos - 1000000000 else t.nanos
  yearText date.year ++ '-' :: twoDigits date.month ++ '-' :: twoDigits date.day
    ++ 'T' :: twoDigits (inDay / 3600)
    ++ ':' :: twoDigits (inDay / 60 % 60)
    ++ ':' :: twoDigits second
    ++ fractionText nanos
    ++ mark.text

/-- `textChars` as a string. -/
def text (mark : UtcMark) (t : Instant) : String := String.ofList (t.textChars mark)

end Instant

end PriceSignals.Time
