/-
Module: PriceSignals.Time.Reader
Purpose: Reading points in time from text.
Main exports:
  Fault, Fault.message, Moment, Moment.toInstant, readInternet, readLenient, readLocal, readDate,
  instant?
-/
import PriceSignals.Text.Character
import PriceSignals.Time.Instant

namespace PriceSignals.Time

/-! ### What can be wrong -/

/-- Why a text is not a point in time. -/
inductive Fault where
  | outOfRange
  | impossible
  | invalid
  | tooShort
  | tooLong
deriving Repr, DecidableEq

/-- The wording of a fault. -/
def Fault.message : Fault → String
  | .outOfRange => "input is out of range"
  | .impossible => "no possible date and time matching input"
  | .invalid => "input contains invalid characters"
  | .tooShort => "premature end of input"
  | .tooLong => "trailing input"

/-! ### Parts of a time -/

/-- A date and a time of day as read from a clock somewhere. Second 60 is a leap second. -/
structure Moment where
  date : Date
  hour : Nat
  minute : Nat
  second : Nat
  nanos : Nat
deriving Repr, DecidableEq

/-- The instant of a clock reading that is `offset` seconds ahead of UTC. -/
def Moment.toInstant (m : Moment) (offset : Int) : Except Fault Instant :=
  if ¬ (m.date.Valid ∧ -262143 ≤ m.date.year ∧ m.date.year ≤ 262142) then .error .outOfRange
  else if ¬ (-86400 < offset ∧ offset < 86400) then .error .outOfRange
  else
    let leap := m.second = 60
    let second := if leap then 59 else m.second
    let nanos := if leap then m.nanos + 1000000000 else m.nanos
    let onClock : Int := m.date.toDays * 86400 + (m.hour * 3600 + m.minute * 60 + second : Nat)
    match Instant.ofUnix? (onClock - offset) nanos with
    | some t => .ok t
    | none => .error .impossible

/-- One given character. -/
def expect (c : Char) : List Char → Except Fault (Unit × List Char)
  | [] => .error .tooShort
  | d :: rest => if d = c then .ok ((), rest) else .error .invalid

/-- A number of at least `least` and at most `most` digits. It has to fit a signed word of 64
bits. -/
def number (least most : Nat) (cs : List Char) : Except Fault (Nat × List Char) :=
  if cs.length < least then .error .tooShort
  else
    let (row, _) := Digit.takeRow Digit.ofChar? (cs.take most)
    if row.length < least then .error .invalid
    else if Int64.maxValue.toInt < Digit.value row then .error .outOfRange
    else .ok (Digit.value row, cs.drop row.length)

/-- A number that lies in a range. -/
def ranged (low high : Nat) (read : List Char → Except Fault (Nat × List Char))
    (cs : List Char) : Except Fault (Nat × List Char) := do
  let (n, rest) ← read cs
  if low ≤ n ∧ n ≤ high then return (n, rest) else throw .outOfRange

/-- The nanoseconds of a fraction behind its point; digits after the ninth do not count. -/
def fraction (cs : List Char) : Except Fault (Nat × List Char) := do
  let (row, _) := Digit.takeRow Digit.ofChar? (cs.take 9)
  let (_, rest) ← number 1 9 cs
  return (Digit.value row * Nat.pow 10 (9 - row.length),
    rest.dropWhile fun c => (Digit.ofChar? c).isSome)

/-- A fraction, or nothing where there is no point. -/
def optionalFraction : List Char → Except Fault (Nat × List Char)
  | '.' :: rest => fraction rest
  | cs => .ok (0, cs)

/-- A distance from UTC in seconds: `Z`, or a sign, two digits of hours, what `between` passes
over, and two digits of minutes. -/
def zone (between : List Char → Except Fault (Unit × List Char)) (cs : List Char) :
    Except Fault (Int × List Char) :=
  let pair : List Char → Except Fault (Digit × Digit × List Char)
    | [] => .error .tooShort
    | [a] => .error (if a.toNat < 128 then .tooShort else .invalid)
    | a :: b :: rest =>
      match Digit.ofChar? a, Digit.ofChar? b with
      | some a, some b => .ok (a, b, rest)
      | _, _ => .error .invalid
  let distance (sign : Int) (cs : List Char) : Except Fault (Int × List Char) := do
    let (h1, h2, cs) ← pair cs
    let (_, cs) ← between cs
    let (m1, m2, cs) ← pair cs
    if 6 ≤ m1.val then throw .outOfRange
    let minutes : Nat := (h1.val * 10 + h2.val) * 60 + (m1.val * 10 + m2.val)
    return (sign * (minutes * 60 : Nat), cs)
  match cs with
  | [] => .error .tooShort
  | c :: rest =>
    if c = 'Z' ∨ c = 'z' then .ok (0, rest)
    else if c = '+' then distance 1 rest
    else if c = '-' ∨ c = '−' then distance (-1) rest
    else .error .invalid

/-! ### Internet times -/

/-- A time that is written strictly as RFC 3339 lays down; a space may stand for the `T`. -/
def readInternet (cs : List Char) : Except Fault Instant := do
  let (year, cs) ← number 4 4 cs
  let (_, cs) ← expect '-' cs
  let (month, cs) ← ranged 1 12 (number 2 2) cs
  let (_, cs) ← expect '-' cs
  let (day, cs) ← ranged 1 31 (number 2 2) cs
  let cs ←
    match cs with
    | [] => throw .tooShort
    | c :: rest => if c = 'T' ∨ c = 't' ∨ c = ' ' then pure rest else throw .invalid
  let (hour, cs) ← ranged 0 23 (number 2 2) cs
  let (_, cs) ← expect ':' cs
  let (minute, cs) ← ranged 0 59 (number 2 2) cs
  let (_, cs) ← expect ':' cs
  let (second, cs) ← ranged 0 60 (number 2 2) cs
  let (nanos, cs) ← optionalFraction cs
  let (offset, cs) ← zone (expect ':') cs
  if ¬ (-86400 < offset ∧ offset < 86400) then throw .outOfRange
  if ¬ cs.isEmpty then throw .tooLong
  Moment.toInstant { date := { year, month, day }, hour, minute, second, nanos } offset

/-! ### Times with room -/

/-- A number of one or two digits that may have blanks in front. -/
def roomyNumber (low high : Nat) (cs : List Char) : Except Fault (Nat × List Char) :=
  ranged low high (number 1 2) (Text.trimStart cs)

/-- A year: up to four digits, or a sign and any number of digits; blanks may stand in front. -/
def year (cs : List Char) : Except Fault (Int × List Char) := do
  let cs := Text.trimStart cs
  let (n, rest) ←
    match cs with
    | '-' :: rest => do
      let (n, rest) ← number 1 rest.length.succ rest
      pure (-(n : Int), rest)
    | '+' :: rest => do
      let (n, rest) ← number 1 rest.length.succ rest
      pure ((n : Int), rest)
    | cs => do
      let (n, rest) ← number 1 4 cs
      pure ((n : Int), rest)
  if Int32.minValue.toInt ≤ n ∧ n ≤ Int32.maxValue.toInt then return (n, rest)
  else throw .outOfRange

/-- A separator that may have blanks in front. -/
def roomyExpect (c : Char) (cs : List Char) : Except Fault (Unit × List Char) :=
  expect c (Text.trimStart cs)

/-- A date whose separators are passed over by `separator`. -/
def dateParts (separator : Char → List Char → Except Fault (Unit × List Char)) (cs : List Char) :
    Except Fault (Date × List Char) := do
  let (year, cs) ← year cs
  let (_, cs) ← separator '-' cs
  let (month, cs) ← roomyNumber 1 12 cs
  let (_, cs) ← separator '-' cs
  let (day, cs) ← roomyNumber 1 31 cs
  return ({ year, month, day }, cs)

/-- A time of day whose separators are passed over by `separator`. -/
def clockParts (separator : Char → List Char → Except Fault (Unit × List Char)) (cs : List Char) :
    Except Fault ((Nat × Nat × Nat) × List Char) := do
  let (hour, cs) ← roomyNumber 0 23 cs
  let (_, cs) ← separator ':' cs
  let (minute, cs) ← roomyNumber 0 59 cs
  let (_, cs) ← separator ':' cs
  let (second, cs) ← roomyNumber 0 60 cs
  return ((hour, minute, second), cs)

/-- An internet time in which blanks may stand around the parts, the distance from UTC may be
written in any of the usual ways, and `UTC` is a name for no distance. -/
def readLenient (cs : List Char) : Except Fault Instant := do
  let (date, cs) ← dateParts roomyExpect cs
  let cs ←
    match cs with
    | [] => throw .tooShort
    | c :: rest => if c = 'T' ∨ c = 't' ∨ c = ' ' then pure rest else throw .invalid
  let ((hour, minute, second), cs) ← clockParts roomyExpect cs
  let (nanos, cs) ← optionalFraction cs
  let cs := Text.trimStart cs
  let between (cs : List Char) : Except Fault (Unit × List Char) :=
    .ok ((), cs.dropWhile fun c => c = ':' || Text.isBlank c)
  let (offset, cs) ←
    if Text.asciiLower (cs.take 3) = ['u', 't', 'c'] then pure (0, cs.drop 3)
    else zone between cs
  if ¬ (Text.trimStart cs).isEmpty then throw .tooLong
  Moment.toInstant { date, hour, minute, second, nanos } offset

/-- `YYYY-MM-DDTHH:MM:SS`, taken to be in UTC. -/
def readLocal (cs : List Char) : Except Fault Instant := do
  let (date, cs) ← dateParts expect cs
  let (_, cs) ← expect 'T' cs
  let ((hour, minute, second), cs) ← clockParts expect cs
  if ¬ cs.isEmpty then throw .tooLong
  Moment.toInstant { date, hour, minute, second, nanos := 0 } 0

/-- `YYYY-MM-DD`, which is midnight in UTC. -/
def readDate (cs : List Char) : Except Fault Instant := do
  let (date, cs) ← dateParts expect cs
  if ¬ cs.isEmpty then throw .tooLong
  Moment.toInstant { date, hour := 0, minute := 0, second := 0, nanos := 0 } 0

/-- The instant that a text names: an internet time, else a time without zone, else a date.
Blanks around the text do not count. -/
def instant? (text : List Char) : Option Instant :=
  let cs := Text.trim text
  (readInternet cs).toOption <|> (readLocal cs).toOption <|> (readDate cs).toOption

end PriceSignals.Time
