/-
Module: PriceSignals.Toml.Scalar
Purpose: Numbers, truth values, dates and times of TOML.
Main exports:
  digitRow, number, moment?, scalar
-/
import PriceSignals.Decimal.Literal
import PriceSignals.Time.Calendar
import PriceSignals.Toml.Token

namespace PriceSignals.Toml

/-! ### Digits -/

/-- One or more digits, with what follows them. Single underscores may stand between digits. -/
def digitRow {α : Type} (digit? : Char → Option α) : List Char → Option (List α × List Char)
  | [] => none
  | c :: rest => do
    let d ← digit? c
    match rest with
    | '_' :: tail =>
      let (more, tail) ← digitRow digit? tail
      return (d :: more, tail)
    | e :: tail =>
      if (digit? e).isSome then
        let (more, tail) ← digitRow digit? (e :: tail)
        return (d :: more, tail)
      else return ([d], e :: tail)
    | [] => return ([d], [])

/-- The digits of a whole number; a leading zero stands alone. -/
def wholeDigits : List Char → Option (List Digit × List Char)
  | '0' :: rest => some ([Digit.zero], rest)
  | cs => digitRow Digit.ofChar? cs

/-! ### Numbers -/

/-- A sign, if there is one: whether it is a minus sign, and what follows it. -/
def sign? : List Char → Option (Bool × List Char)
  | '+' :: rest => some (false, rest)
  | '-' :: rest => some (true, rest)
  | _ => none

/-- An exponent behind its letter. -/
def exponent (cs : List Char) : Option (Decimal.Exponent × List Char) := do
  let (negative, rest) := (sign? cs).getD (false, cs)
  let (digits, rest) ← digitRow Digit.ofChar? rest
  return ({ negative, digits }, rest)

/-- The number of a literal. A positive number too large for a double is refused. -/
def float? (l : Decimal.Literal) : Option Value :=
  let x := l.nearest
  if x.isInf ∧ ¬ l.negative then none else some (.float x)

/-- A whole number; it has to fit a signed word of 64 bits. -/
def integer? (n : Int) : Option Value :=
  if Int64.minValue.toInt ≤ n ∧ n ≤ Int64.maxValue.toInt then some (.integer n) else none

/-- The digit of a base up to sixteen. -/
def digitBelow? (base : Nat) (c : Char) : Option Nat :=
  (Text.hexDigit? c).filter (· < base)

/-- A whole number in another base. -/
def based (base : Nat) (cs : List Char) : Option (Value × List Char) := do
  let (digits, rest) ← digitRow (digitBelow? base) cs
  let v ← integer? (digits.foldl (fun n d => n * base + d) 0 : Nat)
  return (v, rest)

/-- What may follow the whole part of a number. -/
def fractional (negative : Bool) (whole : List Digit) (cs : List Char) :
    Option (Value × List Char) := do
  match cs with
  | '.' :: rest =>
    let (fraction, rest) ← digitRow Digit.ofChar? rest
    match rest with
    | c :: tail =>
      if c = 'e' ∨ c = 'E' then
        let (e, tail) ← exponent tail
        let v ← float? { negative, whole, fraction, exponent := some e }
        return (v, tail)
      else
        let v ← float? { negative, whole, fraction, exponent := none }
        return (v, rest)
    | [] =>
      let v ← float? { negative, whole, fraction, exponent := none }
      return (v, [])
  | c :: tail =>
    if c = 'e' ∨ c = 'E' then
      let (e, tail) ← exponent tail
      let v ← float? { negative, whole, fraction := [], exponent := some e }
      return (v, tail)
    else
      let v ← integer? (if negative then -(Digit.value whole : Int) else Digit.value whole)
      return (v, cs)
  | [] =>
    let v ← integer? (if negative then -(Digit.value whole : Int) else Digit.value whole)
    return (v, [])

/-- A decimal number or one of `inf` and `nan`, after its sign. -/
def unsigned (negative : Bool) : List Char → Option (Value × List Char)
  | 'i' :: 'n' :: 'f' :: rest =>
    let size : Float := 1.0 / 0.0
    some (.float (if negative then -size else size), rest)
  | 'n' :: 'a' :: 'n' :: rest => some (.float (0.0 / 0.0), rest)
  | cs => do
    let (whole, rest) ← wholeDigits cs
    fractional negative whole rest

/-- A number, and what follows it. Only numbers without a sign can have another base. -/
def number : List Char → Option (Value × List Char)
  | '0' :: 'x' :: rest => based 16 rest
  | '0' :: 'o' :: rest => based 8 rest
  | '0' :: 'b' :: rest => based 2 rest
  | cs =>
    match sign? cs with
    | some (negative, rest) => unsigned negative rest
    | none => unsigned false cs

/-! ### Dates and times -/

/-- A number of exactly `count` digits within a range. -/
def fixed (count low high : Nat) (cs : List Char) : Option (Nat × List Char) := do
  let row ← (cs.take count).mapM Digit.ofChar?
  let n := Digit.value row
  if row.length = count ∧ low ≤ n ∧ n ≤ high then return (n, cs.drop count) else none

/-- What follows a given character. -/
def after (c : Char) : List Char → Option (List Char)
  | d :: rest => if d = c then some rest else none
  | [] => none

/-- What follows a date of the calendar. -/
def date? (cs : List Char) : Option (List Char) := do
  let (year, cs) ← fixed 4 0 9999 cs
  let cs ← after '-' cs
  let (month, cs) ← fixed 2 1 12 cs
  let cs ← after '-' cs
  let (day, cs) ← fixed 2 1 31 cs
  if ({ year, month, day } : Time.Date).Valid then return cs else none

/-- What follows a time of day. -/
def clock? (cs : List Char) : Option (List Char) := do
  let (_, cs) ← fixed 2 0 23 cs
  let cs ← after ':' cs
  let (_, cs) ← fixed 2 0 59 cs
  let cs ← after ':' cs
  let (_, cs) ← fixed 2 0 60 cs
  match cs with
  | '.' :: rest =>
    match Digit.takeRow Digit.ofChar? rest with
    | ([], _) => none
    | (_, rest) => return rest
  | cs => return cs

/-- What follows a distance from UTC. -/
def zone? : List Char → Option (List Char)
  | [] => none
  | c :: rest =>
    if c = 'Z' ∨ c = 'z' then some rest
    else if c = '+' ∨ c = '-' then do
      let (_, rest) ← fixed 2 0 23 rest
      let rest ← after ':' rest
      let (_, rest) ← fixed 2 0 59 rest
      return rest
    else none

/-- What follows a date, a time of day, or a date with a time of day and perhaps a distance from
UTC. -/
def moment? (cs : List Char) : Option (List Char) :=
  match date? cs with
  | none => clock? cs
  | some [] => some []
  | some (c :: rest) =>
    if c = 'T' ∨ c = 't' ∨ c = ' ' then
      match clock? rest with
      | some rest => some ((zone? rest).getD rest)
      | none => some (c :: rest)
    else some (c :: rest)

/-! ### Plain values -/

/-- A value that is neither a string nor holds other values, and what follows it. -/
def scalar (cs : List Char) : Option (Value × List Char) :=
  match cs with
  | 't' :: 'r' :: 'u' :: 'e' :: rest => some (.boolean true, rest)
  | 'f' :: 'a' :: 'l' :: 's' :: 'e' :: rest => some (.boolean false, rest)
  | _ =>
    match moment? cs with
    | some rest => some (.moment, rest)
    | none => number cs

end PriceSignals.Toml
