/-
Module: PriceSignals.Proofs.Results
Purpose: What a computation that may fail has done where it succeeds.
Main exports:
  bind_of_ok, bind_of_some, exists_of_bind_eq_ok, mapError_eq_ok_iff,
  exists_forall₂_of_mapM, mapM_eq_error_of_first
-/
import Mathlib.Data.List.Forall2

namespace PriceSignals

variable {ε ε' α β : Type}

/-- After a success the computation goes on with its value. -/
theorem bind_of_ok {x : Except ε α} {a : α} (h : x = .ok a) (f : α → Except ε β) :
    x >>= f = f a := by
  rw [h]
  rfl

/-- After a value the computation goes on with it. -/
theorem bind_of_some {x : Option α} {a : α} (h : x = some a) (f : α → Option β) :
    x.bind f = f a := by
  rw [h]
  rfl

/-- Two computations in a row succeed only where both do. -/
theorem exists_of_bind_eq_ok {x : Except ε α} {f : α → Except ε β} {b : β}
    (h : x >>= f = .ok b) : ∃ a, x = .ok a ∧ f a = .ok b := by
  cases x with
  | error e => cases h
  | ok a => exact ⟨a, rfl, h⟩

/-- Another wording of the faults does not touch what succeeds. -/
theorem mapError_eq_ok_iff {x : Except ε α} {f : ε → ε'} {a : α} :
    x.mapError f = .ok a ↔ x = .ok a := by
  cases x with
  | error e => exact ⟨nofun, nofun⟩
  | ok b =>
      have same : (Except.ok b : Except ε α).mapError f = .ok b := rfl
      rw [same, Except.ok.injEq, Except.ok.injEq]

/-! ### Lists of computations -/

variable {f : α → Except ε β}

/-- Where every member succeeds, the whole list does, member by member. -/
theorem exists_forall₂_of_mapM {P : α → β → Prop} {xs : List α}
    (fine : ∀ x ∈ xs, ∃ y, f x = .ok y ∧ P x y) :
    ∃ ys, xs.mapM f = .ok ys ∧ List.Forall₂ P xs ys := by
  induction xs with
  | nil => exact ⟨[], rfl, .nil⟩
  | cons x xs ih =>
      obtain ⟨y, first, related⟩ := fine x List.mem_cons_self
      obtain ⟨ys, others, pairs⟩ := ih fun z member => fine z (List.mem_cons_of_mem x member)
      refine ⟨y :: ys, ?_, .cons related pairs⟩
      rw [List.mapM_cons]
      refine (bind_of_ok first _).trans ?_
      exact bind_of_ok others _

/-- A list fails with its first member that fails. -/
theorem mapM_eq_error_of_first {before after : List α} {a : α} {e : ε}
    (fine : ∀ x ∈ before, ∃ y, f x = .ok y) (fails : f a = .error e) :
    (before ++ a :: after).mapM f = .error e := by
  induction before with
  | nil =>
      rw [List.nil_append, List.mapM_cons, fails]
      rfl
  | cons x before ih =>
      obtain ⟨y, first⟩ := fine x List.mem_cons_self
      have others := ih fun z member => fine z (List.mem_cons_of_mem x member)
      rw [List.cons_append, List.mapM_cons]
      refine (bind_of_ok first _).trans ?_
      rw [others]
      rfl

end PriceSignals
