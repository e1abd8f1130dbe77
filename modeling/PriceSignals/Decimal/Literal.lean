/-
Module: PriceSignals.Decimal.Literal
Purpose: Written decimal numbers, their text, and the double nearest to them.
Main exports:
  Exponent, Literal, Literal.text, Literal.nearest, nearestDouble
-/
import PriceSignals.Decimal.Digit

namespace PriceSignals.Decimal

/-- The power of ten behind an `e`, as written. -/
structure Exponent where
  negative : Bool
  digits : List Digit
deriving Repr, DecidableEq

/-- The power of ten as a number. -/
def Exponent.toInt (e : Exponent) : Int :=
  if e.negative then -(Digit.value e.digits : Int) else Digit.value e.digits

/-- A decimal number as written: a sign, the digits before and after the point, and an
exponent. An empty fraction means that there is no point. -/
structure Literal where
  negative : Bool
  whole : List Digit
  fraction : List Digit
  exponent : Option Exponent
deriving Repr, DecidableEq

/-- The text of an exponent; its sign is always shown. -/
def Exponent.text (e : Exponent) : List Char :=
  'e' :: (if e.negative then '-' else '+') :: Digit.text e.digits

/-- The text of a literal. -/
def Literal.text (l : Literal) : List Char :=
  (if l.negative then ['-'] else [])
    ++ Digit.text l.whole
    ++ (if l.fraction.isEmpty then [] else '.' :: Digit.text l.fraction)
    ++ (match l.exponent with
        | none => []
        | some e => e.text)

/-- The double nearest to `coefficient * 10 ^ exponent`, a tie going to the even one. Numbers
far outside the range of doubles are settled by their count of digits, so that no huge power
of ten is ever computed. -/
def nearestDouble (negative : Bool) (coefficient : Nat) (exponent : Int) : Float :=
  let order : Int := (Digit.ofNat coefficient).length + exponent
  let size : Float :=
    if coefficient = 0 then 0.0
    else if 310 < order then 1.0 / 0.0
    else if order < -330 then 0.0
    else Float.ofScientific coefficient (decide (exponent < 0)) exponent.natAbs
  if negative then -size else size

/-- The double nearest to a literal. -/
def Literal.nearest (l : Literal) : Float :=
  let shift : Int :=
    match l.exponent with
    | none => 0
    | some e => e.toInt
  nearestDouble l.negative (Digit.value (l.whole ++ l.fraction)) (shift - l.fraction.length)

end PriceSignals.Decimal
