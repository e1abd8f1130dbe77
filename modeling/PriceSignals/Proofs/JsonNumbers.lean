/-
Module: PriceSignals.Proofs.JsonNumbers
Purpose: How whole numbers and doubles are written in JSON. A whole number is read as it was
  written; a double is written so that it cannot be taken for a whole number.
Main exports:
  Decimal.isJson_of_literal?, Decimal.literal?_exchange, Tree.ofInt_natural, Tree.ofInt_negative,
  Tree.isWhole_ofFloat, Recovered, Recovered.ofFloat, Recovered.float
-/
import PriceSignals.Proofs.DecimalReadBack
import PriceSignals.Proofs.JsonPrinting

namespace PriceSignals

/-- The first digit of a number is not nought, unless the number is. -/
theorem Digit.ofNat_eq_cons {n : Nat} (positive : 0 < n) :
    ∃ d more, ofNat n = d :: more ∧ d ≠ zero := by
  induction n using Nat.strongRecOn with
  | _ n ih =>
    rw [ofNat]
    split
    · rename_i small
      refine ⟨Fin.ofNat 10 n, [], rfl, ?_⟩
      intro nought
      have value := congrArg Fin.val nought
      simp [Fin.ofNat, Nat.mod_eq_of_lt small] at value
      omega
    · rename_i large
      obtain ⟨d, more, start, leading⟩ := ih (n / 10) (by omega) (by omega)
      exact ⟨d, more ++ [Fin.ofNat 10 n], by rw [start]; rfl, leading⟩

namespace Decimal

/-- The digits of a double that is not zero do not stand for zero. -/
theorem shortest_pos (tie : Tie) {m : Nat} (q : Int) (some_mantissa : 0 < m) :
    0 < (shortest tie m q).1 := by
  have above := (around_shortest tie q some_mantissa).pos some_mantissa
  rcases Nat.eq_zero_or_pos (shortest tie m q).1 with zero | positive
  · rw [zero] at above
    simp at above
  · exact positive

theorem isLeading_cons {d : Digit} (leading : d ≠ Digit.zero) (more : List Digit) :
    IsLeading (d :: more) where
  filled := List.cons_ne_nil d more
  nought _ same := absurd (List.cons.inj same).1 leading

theorem isLeading_singleton (d : Digit) : IsLeading [d] where
  filled := List.cons_ne_nil d []
  nought _ same := (List.cons.inj same).2.symm

theorem isLeading_ofNat (n : Nat) : IsLeading (Digit.ofNat n) := by
  rcases Nat.eq_zero_or_pos n with rfl | positive
  · rw [Digit.ofNat, if_pos (by decide)]
    exact isLeading_singleton _
  · obtain ⟨d, more, start, leading⟩ := Digit.ofNat_eq_cons positive
    rw [start]
    exact isLeading_cons leading more

theorem isLeading_positionalParts {d : Digit} (leading : d ≠ Digit.zero) (more : List Digit)
    (i : Int) : IsLeading (positionalParts (d :: more) i).1 := by
  unfold positionalParts
  split
  · exact isLeading_cons leading _
  · dsimp only
    split
    · rename_i inside
      rw [List.splitAt_eq]
      obtain ⟨k, places⟩ : ∃ k, (d :: more).length - (-i).toNat = k + 1 :=
        ⟨(d :: more).length - (-i).toNat - 1, by omega⟩
      rw [places, List.take_succ_cons]
      exact isLeading_cons leading _
    · exact isLeading_singleton Digit.zero

/-- What is written of a double, in any style, is a number that JSON can write. -/
theorem isJson_of_literal? {style : Style} {x : Float} {l : Literal}
    (written : style.literal? x = some l) : l.IsJson := by
  obtain ⟨⟨m, q⟩, -, rfl⟩ := Option.map_eq_some_iff.mp written
  dsimp only
  by_cases zero : m = 0
  · rw [if_pos zero]
    exact ⟨isLeading_singleton _, nofun⟩
  · obtain ⟨d, more, row, leading⟩ :=
      Digit.ofNat_eq_cons (shortest_pos style.tie q (Nat.pos_of_ne_zero zero))
    rw [if_neg zero, row]
    split
    · exact ⟨isLeading_positionalParts leading more _, nofun⟩
    · refine ⟨isLeading_singleton d, ?_⟩
      intro e same
      obtain rfl := Option.some.inj same
      exact (isLeading_ofNat _).filled

/-- A double is written in JSON as a number with a point or an exponent. -/
theorem literal?_exchange {x : Float} {l : Literal} (written : Style.exchange.literal? x = some l) :
    l.IsJson ∧ (l.fraction ≠ [] ∨ l.exponent ≠ none) := by
  refine ⟨isJson_of_literal? written, ?_⟩
  obtain ⟨⟨m, q⟩, -, rfl⟩ := Option.map_eq_some_iff.mp written
  have pointed : (if Style.exchange.pointed then [Digit.zero] else []) = [Digit.zero] := rfl
  dsimp only
  rw [pointed]
  by_cases zero : m = 0
  · rw [if_pos zero]
    exact .inl nofun
  · rw [if_neg zero]
    split
    · refine .inl ?_
      dsimp only
      split
      · exact List.cons_ne_nil _ _
      · rename_i filled
        simpa using filled
    · exact .inr nofun

end Decimal

namespace Json

open Decimal (Literal Style)

/-! ### Whole numbers -/

/-- Digits are taken into a significand that has room for them all. -/
theorem absorb_eq {significand : Nat} {row : List Digit}
    (room : significand * 10 ^ row.length + Digit.value row < significandBound) :
    absorb significand row = (significand * 10 ^ row.length + Digit.value row, []) := by
  induction row generalizing significand with
  | nil => simp [absorb, Digit.value]
  | cons d row ih =>
      have split_value : Digit.value (d :: row) = d.val * 10 ^ row.length + Digit.value row := by
        have joined := Digit.value_append [d] row
        simpa [Digit.value] using joined
      have shifted : significand * 10 ^ (row.length + 1) + Digit.value (d :: row)
          = (significand * 10 + d.val) * 10 ^ row.length + Digit.value row := by
        rw [split_value, pow_succ]
        ring
      rw [List.length_cons, shifted] at room ⊢
      have one : 1 ≤ 10 ^ row.length := Nat.one_le_pow _ _ (by decide)
      have below : significand * 10 + d.val < significandBound := by nlinarith
      rw [absorb, if_pos below, ih room]

theorem absorb_ofNat {n : Nat} (small : n < significandBound) :
    absorb 0 (Digit.ofNat n) = (n, []) := by
  have room : 0 * 10 ^ (Digit.ofNat n).length + Digit.value (Digit.ofNat n) < significandBound := by
    rwa [Nat.zero_mul, Nat.zero_add, Digit.value_ofNat]
  rw [absorb_eq room, Nat.zero_mul, Nat.zero_add, Digit.value_ofNat]

theorem Tree.isWhole_ofInt (n : Int) : (Tree.ofInt n).IsWhole :=
  ⟨Decimal.isLeading_ofNat n.natAbs, nofun⟩

/-- A whole number that is not negative is read as it was written. -/
theorem Tree.ofInt_natural {n : Nat} (small : n < significandBound) :
    ∃ l, Tree.ofInt n = .number l ∧ Numeric.ofLiteral? l = some (.natural n) := by
  refine ⟨_, rfl, ?_⟩
  have sign : decide ((n : Int) < 0) = false := by simp
  rw [sign, Numeric.ofLiteral?, Int.natAbs_natCast, absorb_ofNat small]
  rfl

/-- So is a negative one. -/
theorem Tree.ofInt_negative {n : Nat} (positive : 0 < n) (small : n ≤ 2 ^ 63) :
    ∃ l, Tree.ofInt (-(n : Int)) = .number l ∧ Numeric.ofLiteral? l = some (.negative n) := by
  refine ⟨_, rfl, ?_⟩
  have sign : decide (-(n : Int) < 0) = true := by simp [positive]
  have room : n < significandBound := by
    have bound : significandBound = 2 ^ 64 := rfl
    omega
  have least : Int64.minValue.toInt = -2 ^ 63 := by decide
  rw [sign, Numeric.ofLiteral?, Int.natAbs_neg, Int.natAbs_natCast, absorb_ofNat room]
  have kept : 0 < n ∧ Int64.minValue.toInt ≤ -(n : Int) := by omega
  dsimp only [List.isEmpty_nil, Option.isNone_none]
  rw [if_pos (by decide), if_neg (by decide), if_pos kept]

/-! ### Doubles -/

/-- A double that is finite and is read from JSON as it was written. -/
def Recovered (x : Float) : Prop :=
  ∃ l, Style.exchange.literal? x = some l ∧ (Numeric.ofLiteral? l).map Numeric.toFloat = some x

instance (x : Float) : Decidable (Recovered x) :=
  decidable_of_iff ((Style.exchange.literal? x).bind (fun l =>
    (Numeric.ofLiteral? l).map Numeric.toFloat) = some x) Option.bind_eq_some_iff

theorem Tree.isWhole_ofFloat (x : Float) : (Tree.ofFloat x).IsWhole := by
  unfold Tree.ofFloat
  cases written : Style.exchange.literal? x with
  | none => trivial
  | some l => exact (Decimal.literal?_exchange written).1

/-- A number with a point or an exponent is never taken for a whole number. -/
theorem Numeric.ofLiteral?_of_pointed {l : Literal} (pointed : l.fraction ≠ [] ∨ l.exponent ≠ none)
    {n : Numeric} (read : Numeric.ofLiteral? l = some n) : ∃ x, n = .float x := by
  unfold Numeric.ofLiteral? at read
  dsimp only at read
  have broken : ((absorb 0 l.whole).2.isEmpty && l.fraction.isEmpty && l.exponent.isNone)
      = false := by
    rcases pointed with fraction | exponent
    · simp [fraction]
    · cases given : l.exponent with
      | none => exact absurd given exponent
      | some e => simp
  rw [broken] at read
  simp only [Bool.false_eq_true, if_false, Option.map_eq_some_iff] at read
  obtain ⟨x, -, rfl⟩ := read
  exact ⟨_, rfl⟩

/-- How a double that is recovered stands in JSON. -/
theorem Recovered.ofFloat {x : Float} (recovered : Recovered x) :
    ∃ l, Tree.ofFloat x = .number l ∧ Numeric.ofLiteral? l = some (.float x) := by
  obtain ⟨l, written, read⟩ := recovered
  obtain ⟨n, literal, same⟩ := Option.map_eq_some_iff.mp read
  obtain ⟨y, rfl⟩ := Numeric.ofLiteral?_of_pointed (Decimal.literal?_exchange written).2 literal
  obtain rfl : y = x := same
  refine ⟨l, ?_, literal⟩
  rw [Tree.ofFloat, written]

theorem Recovered.float {x : Float} (recovered : Recovered x) : (Tree.ofFloat x).float = .ok x := by
  obtain ⟨l, written, read⟩ := recovered.ofFloat
  rw [written, Tree.float, read]
  rfl

end Json

end PriceSignals
