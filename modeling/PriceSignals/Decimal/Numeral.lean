/-
Module: PriceSignals.Decimal.Numeral
Purpose: Numbers as people write them into tables.
Main exports:
  integer?, literal?, float?
-/
import PriceSignals.Decimal.Literal
import PriceSignals.Text.Character

namespace PriceSignals.Decimal.Numeral

/-- Splits a sign off a text: whether it is a minus sign, and what follows. Without a sign the
number is positive. -/
def splitSign : List Char → Bool × List Char
  | '-' :: rest => (true, rest)
  | '+' :: rest => (false, rest)
  | cs => (false, cs)

/-- A whole number that fits a signed word of 64 bits. -/
def integer? (cs : List Char) : Option Int64 :=
  let (negative, rest) := splitSign cs
  match Digit.takeRow Digit.ofChar? rest with
  | ([], _) => none
  | (row, []) =>
    let n : Int := if negative then -(Digit.value row : Int) else Digit.value row
    if Int64.minValue.toInt ≤ n ∧ n ≤ Int64.maxValue.toInt then some (Int64.ofInt n) else none
  | _ => none

/-- An exponent that goes to the end of a text, or the end itself. -/
def exponentToEnd? : List Char → Option (Option Exponent)
  | [] => some none
  | c :: rest =>
    if c = 'e' ∨ c = 'E' then
      let (negative, rest) := splitSign rest
      match Digit.takeRow Digit.ofChar? rest with
      | ([], _) => none
      | (digits, []) => some (some { negative, digits })
      | _ => none
    else none

/-- A decimal number that takes up a whole text. There may be digits on one side of the point
only. -/
def literal? (cs : List Char) : Option Literal :=
  let (negative, rest) := splitSign cs
  let (whole, rest) := Digit.takeRow Digit.ofChar? rest
  let (fraction, rest) :=
    match rest with
    | '.' :: rest => Digit.takeRow Digit.ofChar? rest
    | rest => ([], rest)
  if whole.isEmpty && fraction.isEmpty then none
  else (exponentToEnd? rest).map fun exponent => { negative, whole, fraction, exponent }

/-- A number that takes up a whole text: a decimal, or one of `inf`, `infinity` and `nan` in
letters of any case. -/
def float? (cs : List Char) : Option Float :=
  match literal? cs with
  | some l => some l.nearest
  | none =>
    let (negative, rest) := splitSign cs
    let word := Text.asciiLower rest
    if word = ['i', 'n', 'f'] ∨ word = ['i', 'n', 'f', 'i', 'n', 'i', 't', 'y'] then
      let size : Float := 1.0 / 0.0
      some (if negative then -size else size)
    else if word = ['n', 'a', 'n'] then some (0.0 / 0.0)
    else none

end PriceSignals.Decimal.Numeral
