/-
Module: PriceSignals.Bar.Order
Purpose: The order of bars in time.
Main exports:
  Bar.notAfter, Bar.sort, Bar.inOrder
-/
import PriceSignals.Bar

namespace PriceSignals.Bar

/-- Whether a bar may stand before another one: it is not later, and dated bars stand before
undated ones. -/
def notAfter (a b : Bar) : Bool :=
  match a.instant?, b.instant? with
  | some x, some y => !y.before x
  | some _, none => true
  | none, some _ => false
  | none, none => true

/-- Bars in ascending order of time. Bars of the same instant keep their order, and so do the
undated ones, which come last. -/
def sort (bars : List Bar) : List Bar := bars.mergeSort notAfter

/-- Sorting neither loses nor adds nor changes a bar. -/
theorem sort_perm (bars : List Bar) : (sort bars).Perm bars := List.mergeSort_perm bars notAfter

/-- Whether no instant is earlier than the one before it. -/
def ascending : List Time.Instant → Bool
  | x :: y :: rest => !y.before x && ascending (y :: rest)
  | _ => true

/-- Whether the dated bars are in ascending order of time; undated ones do not count. -/
def inOrder (bars : List Bar) : Bool := ascending (bars.filterMap instant?)

end PriceSignals.Bar
