/-
Module: PriceSignals.Bar.Slots
Purpose: The fields of a bar, whatever format they are read from.
Main exports:
  PartialBar, PartialBar.slots, PartialBar.finish
-/
import PriceSignals.Bar
import PriceSignals.Data.Slot

namespace PriceSignals

/-- A bar some of whose fields are still missing. -/
structure PartialBar where
  time : Option BarTime := none
  opening : Option Float := none
  high : Option Float := none
  low : Option Float := none
  close : Option Float := none
  volume : Option Float := none

namespace PartialBar

variable {δ ε : Type}

/-- The fields of a bar, given how times, prices and volumes are read. -/
def slots (time : δ → Except ε BarTime) (price : δ → Except ε Float)
    (volume : δ → Except ε (Option Float)) : List (Data.Slot PartialBar δ ε) :=
  [{ name := "time", fill := fun b v => do
      let x ← time v
      return { b with time := some x } },
    { name := "open", fill := fun b v => do
      let x ← price v
      return { b with opening := some x } },
    { name := "high", fill := fun b v => do
      let x ← price v
      return { b with high := some x } },
    { name := "low", fill := fun b v => do
      let x ← price v
      return { b with low := some x } },
    { name := "close", fill := fun b v => do
      let x ← price v
      return { b with close := some x } },
    { name := "volume", fill := fun b v => do
      let x ← volume v
      return { b with volume := x } }]

/-- The bar, if all its fields are there; only the volume may be missing. -/
def finish (a : Data.Absence) (b : PartialBar) : Except Data.Fault Bar := do
  let time ← a.require "time" b.time
  let opening ← a.require "open" b.opening
  let high ← a.require "high" b.high
  let low ← a.require "low" b.low
  let close ← a.require "close" b.close
  return { time, opening, high, low, close, volume := b.volume }

end PartialBar

end PriceSignals
