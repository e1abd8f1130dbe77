/-
Module: PriceSignals.Decimal.Style
Purpose: How a double is written: where the point goes and when an exponent is used.
Main exports:
  Style, Style.everyday, Style.exchange, Style.literal?, displayText
-/
import PriceSignals.Binary64
import PriceSignals.Decimal.Literal
import PriceSignals.Decimal.Shortest

namespace PriceSignals.Decimal

/-- The choices that a format makes about the shortest digits of a number. -/
structure Style where
  /-- Which of two equally near decimals is written. -/
  tie : Tie
  /-- Whether a number whose first digit stands for `10 ^ k` is written without an exponent. -/
  positional : Int → Bool
  /-- Whether a whole number is written with `.0`. -/
  pointed : Bool

/-- Numbers in messages, names and table cells: never an exponent, whole numbers without a
point. -/
def Style.everyday : Style where
  tie := .up
  positional := fun _ => true
  pointed := false

/-- Numbers in JSON: an exponent below `1e-5` and from `1e16` on, otherwise always a point. -/
def Style.exchange : Style where
  tie := .even
  positional := fun k => decide (-5 ≤ k ∧ k < 16)
  pointed := true

/-- The digits `row`, scaled by `10 ^ i`, around a decimal point. -/
def positionalParts (row : List Digit) (i : Int) : List Digit × List Digit :=
  if 0 ≤ i then (row ++ List.replicate i.toNat Digit.zero, [])
  else
    let places := (-i).toNat
    if places < row.length then row.splitAt (row.length - places)
    else ([Digit.zero], List.replicate (places - row.length) Digit.zero ++ row)

/-- The digits of a number between one and ten around a decimal point. -/
def normalizedParts : List Digit → List Digit × List Digit
  | [] => ([Digit.zero], [])
  | d :: rest => ([d], rest)

/-- A finite double as it is written in a style; NaN and the infinities have no digits. -/
def Style.literal? (style : Style) (x : Float) : Option Literal :=
  (Binary64.magnitude? x).map fun (m, q) =>
    let negative := Binary64.isNegative x
    let zeroFraction : List Digit := if style.pointed then [Digit.zero] else []
    if m = 0 then
      { negative, whole := [Digit.zero], fraction := zeroFraction, exponent := none }
    else
      let (n, i) := shortest style.tie m q
      let row := Digit.ofNat n
      let k : Int := row.length + i - 1
      if style.positional k then
        let (whole, fraction) := positionalParts row i
        let fraction := if fraction.isEmpty then zeroFraction else fraction
        { negative, whole, fraction, exponent := none }
      else
        let (whole, fraction) := normalizedParts row
        { negative, whole, fraction
          exponent := some { negative := decide (k < 0), digits := Digit.ofNat k.natAbs } }

/-- The text of any double in messages, names and table cells. -/
def displayText (x : Float) : List Char :=
  match Style.everyday.literal? x with
  | some l => l.text
  | none =>
    if x.isNaN then ['N', 'a', 'N']
    else if Binary64.isNegative x then ['-', 'i', 'n', 'f']
    else ['i', 'n', 'f']

/-- `displayText` as a string. -/
def display (x : Float) : String := String.ofList (displayText x)

end PriceSignals.Decimal
