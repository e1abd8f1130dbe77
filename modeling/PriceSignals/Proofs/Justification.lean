/-
Module: PriceSignals.Proofs.Justification
Purpose: What stands behind a verdict that advises to trade. Its reasons are those of the votes for
  its direction, and there is such a vote unless one for the other direction counts below zero.
Main exports:
  Direction.opposite, votes, mem_votes, Verdict.of_append, Verdict.eq_decided_of_stance,
  Verdict.exists_negative_of_side_eq_nil, Verdict.Justified, Verdict.justified_or_turned,
  actionable_verdict_justified, buy_without_vote
-/
import PriceSignals.Proofs.FloatSign
import PriceSignals.Verdict

namespace PriceSignals

/-- The other direction. -/
def Direction.opposite : Direction → Direction
  | .buy => .sell
  | .sell => .buy

theorem Direction.eq_opposite_of_ne {d e : Direction} (h : e ≠ d) : e = d.opposite := by
  cases d <;> cases e <;> first | rfl | exact absurd rfl h

/-- The votes of some rules on a bar, in the order of the rules. -/
def votes (rules : List Rule) (current previous : Annotated) : List Hit :=
  (firedOn rules current previous).map (·.2)

/-- A vote is what some rule makes of the two bars. -/
theorem mem_votes {rules : List Rule} {current previous : Annotated} {hit : Hit} :
    hit ∈ votes rules current previous ↔ ∃ r ∈ rules, r.judge current previous = some hit := by
  simp [votes, firedOn]

theorem latestPair?_append (older : List Annotated) (previous current : Annotated) :
    latestPair? (older ++ [previous, current]) = some (current, previous) := by
  simp [latestPair?]

namespace Verdict

/-- The verdict on a history comes from the votes on its two latest bars. -/
theorem of_append (rules : List Rule) (older : List Annotated) (previous current : Annotated) :
    Verdict.of rules (older ++ [previous, current]) = ofHits (votes rules current previous) := by
  rw [Verdict.of, latestPair?_append]
  rfl

/-! ### Sides and their weights -/

theorem mem_side {hits : List Hit} {d : Direction} {hit : Hit} :
    hit ∈ side hits d ↔ hit ∈ hits ∧ hit.direction = d := by
  simp [side]

/-- Where no vote counts below zero, no direction weighs less than zero. -/
theorem not_weight_lt_zero {hits : List Hit} {d : Direction}
    (h : ∀ hit ∈ side hits d, ¬ hit.strength < 0) : ¬ weight hits d < 0 := by
  refine Binary64.not_div_ofNat_lt_zero (Series.not_total_lt_zero ?_) hits.length
  intro strength member
  obtain ⟨hit, side, rfl⟩ := List.mem_map.mp member
  exact h hit side

/-- A direction nobody voted for weighs nothing, or has no weight at all. -/
theorem weight_of_side_eq_nil {hits : List Hit} {d : Direction} (h : side hits d = []) :
    weight hits d = -0.0 / Float.ofNat hits.length := by
  rw [weight, h]
  rfl

/-- A verdict to trade is the one for a direction that outweighs the other. -/
theorem eq_decided_of_stance {hits : List Hit} {d : Direction}
    (h : (ofHits hits).stance = d.stance) :
    ofHits hits = decided hits d ∧ weight hits d.opposite < weight hits d := by
  unfold ofHits at h ⊢
  split at h
  · cases d <;> cases h
  · rename_i voted
    rw [if_neg voted]
    split at h
    · rename_i buys
      cases d with
      | buy => exact ⟨if_pos buys, buys⟩
      | sell => cases h
    · rename_i keeps
      rw [if_neg keeps]
      split at h
      · rename_i sells
        cases d with
        | buy => cases h
        | sell => exact ⟨if_pos sells, sells⟩
      · cases d <;> cases h

/-- A verdict to trade that nobody voted for has a vote against it that counts below zero: the
direction without votes outweighs the other only where that one weighs less than zero. -/
theorem exists_negative_of_side_eq_nil {hits : List Hit} {d : Direction}
    (h : (ofHits hits).stance = d.stance) (none : side hits d = []) :
    ∃ hit ∈ side hits d.opposite, hit.strength < 0 := by
  obtain ⟨-, heavier⟩ := eq_decided_of_stance h
  rw [weight_of_side_eq_nil none] at heavier
  have negative : weight hits d.opposite < 0 := Binary64.lt_zero_of_lt_zero_div heavier
  by_contra absent
  refine not_weight_lt_zero (fun hit member below => absent ⟨hit, member, below⟩) negative

/-- A verdict that advises nothing gives one reason. -/
theorem reasons_of_neutral {hits : List Hit} (h : (ofHits hits).stance = .neutral) :
    ∃ reason, (ofHits hits).reasons = [reason] := by
  unfold ofHits at h ⊢
  split
  · exact ⟨_, rfl⟩
  · rename_i voted
    rw [if_neg voted] at h
    split
    · rename_i buys
      rw [if_pos buys] at h
      cases h
    · rename_i keeps
      rw [if_neg keeps] at h
      split
      · rename_i sells
        rw [if_pos sells] at h
        cases h
      · exact ⟨_, rfl⟩

/-! ### Justified verdicts -/

/-- What a verdict promises about the votes it comes from. -/
structure Justified (hits : List Hit) (v : Verdict) : Prop where
  /-- Advice to trade follows a vote. -/
  voted : ∀ d : Direction, v.stance = d.stance → ∃ hit ∈ hits, hit.direction = d
  /-- Its reasons are those of all votes for it. -/
  reasons : ∀ d : Direction, v.stance = d.stance → v.reasons = (side hits d).map (·.reason)
  /-- Otherwise there is one reason. -/
  single : v.stance = .neutral → ∃ reason, v.reasons = [reason]

/-- A verdict is justified, or a vote that counts below zero has turned it around: then all votes
are against the verdict, and it gives no reason. -/
theorem justified_or_turned (hits : List Hit) :
    Justified hits (ofHits hits) ∨
      ∃ d : Direction, (ofHits hits).stance = d.stance ∧ (ofHits hits).reasons = [] ∧
        (∀ hit ∈ hits, hit.direction = d.opposite) ∧ ∃ hit ∈ hits, hit.strength < 0 := by
  by_cases supported : ∀ d : Direction, (ofHits hits).stance = d.stance → side hits d ≠ []
  · refine .inl ⟨fun d stance => ?_, fun d stance => ?_, reasons_of_neutral⟩
    · obtain ⟨hit, member⟩ := List.exists_mem_of_ne_nil _ (supported d stance)
      exact ⟨hit, mem_side.mp member⟩
    · rw [(eq_decided_of_stance stance).1]
      rfl
  · push Not at supported
    obtain ⟨d, stance, none⟩ := supported
    obtain ⟨hit, against, below⟩ := exists_negative_of_side_eq_nil stance none
    refine .inr ⟨d, stance, ?_, fun vote member => ?_, hit, (mem_side.mp against).1, below⟩
    · rw [(eq_decided_of_stance stance).1, decided, none]
      rfl
    · refine Direction.eq_opposite_of_ne fun direction => ?_
      have voted : vote ∈ side hits d := mem_side.mpr ⟨member, direction⟩
      rw [none] at voted
      cases voted

end Verdict

/-- The verdict on a history of at least two bars is justified by the votes on the two latest ones,
unless all of them are against it and one of them counts below zero. -/
theorem actionable_verdict_justified (rules : List Rule) (older : List Annotated)
    (previous current : Annotated) :
    let hits := votes rules current previous
    let verdict := Verdict.of rules (older ++ [previous, current])
    verdict.Justified hits ∨
      ∃ d : Direction, verdict.stance = d.stance ∧ verdict.reasons = [] ∧
        (∀ hit ∈ hits, hit.direction = d.opposite) ∧ ∃ hit ∈ hits, hit.strength < 0 := by
  intro hits verdict
  have whole : verdict = Verdict.ofHits hits := Verdict.of_append rules older previous current
  rw [whole]
  exact Verdict.justified_or_turned hits

/-- A rule that always votes to sell, but with a strength below zero. -/
def Rule.reluctant : Rule where
  name := "reluctant"
  judge _ _ := some ⟨.sell, -10, "against"⟩

/-- With that rule alone, the verdict is to buy. -/
theorem of_reluctant (older : List Annotated) (previous current : Annotated) :
    Verdict.of [Rule.reluctant] (older ++ [previous, current])
      = { stance := .buy, strength := 0, reasons := [] } := by
  rw [Verdict.of_append]
  change Verdict.ofHits [⟨.sell, -10, "against"⟩] = _
  decide +kernel

/-- Not every verdict on a history of at least two bars is justified. -/
theorem buy_without_vote :
    ¬ ∀ (rules : List Rule) (older : List Annotated) (previous current : Annotated),
      (Verdict.of rules (older ++ [previous, current])).Justified
        (votes rules current previous) := by
  intro justified
  let bar : Annotated := ⟨⟨.unix 0, 1, 1, 1, 1, none⟩, none, none, none, none, none, none, none⟩
  have promise := justified [Rule.reluctant] [] bar bar
  rw [of_reluctant] at promise
  obtain ⟨hit, member, buys⟩ := promise.voted .buy rfl
  have only : hit = ⟨.sell, -10, "against"⟩ := List.mem_singleton.mp member
  rw [only] at buys
  cases buys

end PriceSignals
