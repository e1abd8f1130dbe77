/-
Module: PriceSignals.Indicator.Checked
Purpose: Computations over buffers whose places are machine words. Every access to a buffer and
  every sum or difference of places is checked, and a broken check stops the computation.
Main exports:
  Trap, Checked, Checked.demand, Checked.add, Checked.sub, Checked.get, Checked.put,
  Checked.slice, Checked.windows, Checked.agree, Checked.foldlM_fill, Checked.mapM_eq_ok
-/
import PriceSignals.Indicator.Contract

namespace PriceSignals

/-- What stops a computation over buffers. -/
inductive Trap where
  /-- A parameter does not meet what is demanded of it. -/
  | contract (violation : Indicator.Violation)
  /-- A sum of places is no machine word. -/
  | overflow
  /-- A difference of places is below zero. -/
  | underflow
  /-- A place is outside its buffer. -/
  | outside (place length : Nat)
  /-- A stretch of places is outside its buffer, or ends before it starts. -/
  | stretch (first stop length : Nat)
  /-- Windows of no size are asked for. -/
  | noSize
  /-- Two buffers that belong together have different lengths. -/
  | lengths (left right : Nat)
deriving Repr, DecidableEq

/-- A computation that gives a result or is stopped. -/
abbrev Checked (α : Type) : Type := Except Trap α

namespace Checked

section Operations

variable {α β : Type}

/-- What has been made with parameters that meet their demands. -/
def demand : Except Indicator.Violation α → Checked α
  | .ok made => .ok made
  | .error violation => .error (.contract violation)

/-- The sum of two places. -/
def add (a b : Nat) : Checked Nat :=
  if a + b < UInt64.size then .ok (a + b) else .error .overflow

/-- The difference of two places. -/
def sub (a b : Nat) : Checked Nat := if b ≤ a then .ok (a - b) else .error .underflow

/-- What stands at a place. -/
def get (buffer : List α) (place : Nat) : Checked α :=
  match buffer[place]? with
  | some value => .ok value
  | none => .error (.outside place buffer.length)

/-- Stores a value at a place. -/
def put (buffer : List α) (place : Nat) (value : α) : Checked (List α) :=
  if place < buffer.length then .ok (buffer.set place value)
  else .error (.outside place buffer.length)

/-- What stands at the places from `first` up to, but without, `stop`. -/
def slice (buffer : List α) (first stop : Nat) : Checked (List α) :=
  if first ≤ stop ∧ stop ≤ buffer.length then .ok ((buffer.take stop).drop first)
  else .error (.stretch first stop buffer.length)

/-- All stretches of a size, from left to right. -/
def windows (size : Nat) (buffer : List α) : Checked (List (List α)) :=
  if size = 0 then .error .noSize
  else
    .ok ((List.range (buffer.length + 1 - size)).map fun first => (buffer.drop first).take size)

/-- Demands that two buffers have one length. -/
def agree (left : List α) (right : List β) : Checked Unit :=
  if left.length = right.length then .ok () else .error (.lengths left.length right.length)

end Operations

/-! ### Checks that pass -/

section Passing

variable {α β : Type}

@[simp]
theorem ok_bind (x : α) (f : α → Checked β) : ((.ok x : Checked α) >>= f) = f x := rfl

@[simp]
theorem pure_eq_ok (x : α) : (pure x : Checked α) = .ok x := rfl

theorem add_eq_ok {a b : Nat} (h : a + b < UInt64.size) : add a b = .ok (a + b) := if_pos h

theorem sub_eq_ok {a b : Nat} (h : b ≤ a) : sub a b = .ok (a - b) := if_pos h

theorem get_eq_ok {buffer : List α} {place : Nat} {value : α} (h : buffer[place]? = some value) :
    get buffer place = .ok value := by
  rw [get, h]

theorem slice_eq_ok {buffer : List α} {first stop : Nat} (ordered : first ≤ stop)
    (inside : stop ≤ buffer.length) :
    slice buffer first stop = .ok ((buffer.take stop).drop first) := if_pos ⟨ordered, inside⟩

theorem windows_eq_ok {size : Nat} (h : 0 < size) (buffer : List α) :
    windows size buffer = .ok
      ((List.range (buffer.length + 1 - size)).map fun first => (buffer.drop first).take size) :=
  if_neg (Nat.ne_of_gt h)

theorem agree_eq_ok {left : List α} {right : List β} (h : left.length = right.length) :
    agree left right = .ok () := if_pos h

/-- A value is stored behind what has been written, over the first place that has not. -/
theorem put_eq_ok {place : Nat} (written : List α) (old new : α) (rest : List α)
    (h : place = written.length) :
    put (written ++ old :: rest) place new = .ok (written ++ new :: rest) := by
  subst h
  rw [put, if_pos (by simp)]
  simp

/-- Steps that all pass give the list of their results. -/
theorem mapM_eq_ok {f : α → Checked β} {g : α → β} {xs : List α}
    (h : ∀ x ∈ xs, f x = .ok (g x)) : xs.mapM f = .ok (xs.map g) := by
  induction xs with
  | nil => rfl
  | cons x xs ih =>
      have rest := ih fun y member => h y (List.mem_cons_of_mem x member)
      rw [List.mapM_cons, h x List.mem_cons_self, ok_bind, rest]
      rfl

end Passing

/-! ### Filling a buffer -/

/-- A loop that stores one value after the other fills what is left of its buffer. The step is
known wherever the places before its own have been written. -/
theorem foldlM_fill {β : Type} {step : List β → Nat → Checked (List β)} {blank : β}
    {value : Nat → β} (count first : Nat) (written : List β)
    (h : ∀ i, first ≤ i → i < first + count → ∀ before rest,
      before.length = written.length + (i - first) →
      step (before ++ blank :: rest) i = .ok (before ++ value i :: rest)) :
    (List.range' first count).foldlM step (written ++ List.replicate count blank)
      = .ok (written ++ (List.range' first count).map value) := by
  induction count generalizing first written with
  | zero => rfl
  | succ count ih =>
      have stored := h first (Nat.le_refl first) (by omega) written (List.replicate count blank)
        (by simp)
      have filled := ih (first + 1) (written ++ [value first]) fun i low high before rest length =>
        h i (by omega) (by omega) before rest (by
          rw [length, List.length_append, List.length_singleton]
          omega)
      rw [List.append_assoc, List.append_assoc] at filled
      rw [List.range'_succ, List.foldlM_cons, List.replicate_succ, stored, ok_bind, List.map_cons]
      exact filled

end Checked

end PriceSignals
