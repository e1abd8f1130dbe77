/-
Module: PriceSignals.Proofs.VoteSymmetry
Purpose: The symmetries of the vote. No rule counts for more because of its place among the rules,
  and neither direction counts for more than the other.
Main exports:
  Hit.mirror, Rule.mirror, Verdict.mirror, Verdict.Rearranges, Verdict.rearranges_tallied,
  Verdict.ofHits_mirror, vote_symmetric
-/
import PriceSignals.Proofs.Tally

namespace PriceSignals

/-! ### Mirror images -/

/-- The same vote for the other direction. -/
def Hit.mirror (hit : Hit) : Hit := { hit with direction := hit.direction.opposite }

/-- The rule that always votes for the other direction. -/
def Rule.mirror (r : Rule) : Rule where
  name := r.name
  judge current previous := (r.judge current previous).map Hit.mirror

/-- The stance for the other direction. -/
def Stance.mirror : Stance → Stance
  | .buy => .sell
  | .sell => .buy
  | .neutral => .neutral

/-- The same verdict for the other direction; one that advises nothing stays as it is. -/
def Verdict.mirror (v : Verdict) : Verdict := { v with stance := v.stance.mirror }

/-- A verdict gives the same advice as another one, and the same reasons in some order. -/
structure Verdict.Rearranges (v w : Verdict) : Prop where
  stance : v.stance = w.stance
  strength : v.strength = w.strength
  reasons : v.reasons.Perm w.reasons

theorem Verdict.Rearranges.refl (v : Verdict) : v.Rearranges v := ⟨rfl, rfl, List.Perm.refl _⟩

theorem Direction.opposite_beq (d e : Direction) : (d.opposite == e) = (d == e.opposite) := by
  cases d <;> cases e <;> rfl

theorem Direction.stance_mirror (d : Direction) : d.stance.mirror = d.opposite.stance := by
  cases d <;> rfl

/-! ### The order of the rules -/

theorem votes_perm {rules reordered : List Rule} (same : reordered.Perm rules)
    (current previous : Annotated) :
    (votes reordered current previous).Perm (votes rules current previous) :=
  (same.filterMap _).map _

namespace Verdict

theorem side_perm {xs ys : List Hit} (same : xs.Perm ys) (d : Direction) :
    (side xs d).Perm (side ys d) :=
  same.filter _

theorem points_perm {xs ys : List Hit} (same : xs.Perm ys) (d : Direction) :
    points xs d = points ys d :=
  ((side_perm same d).map _).sum_eq

theorem rearranges_awarded {xs ys : List Hit} (same : xs.Perm ys) (d : Direction) :
    (awarded xs d).Rearranges (awarded ys d) where
  stance := rfl
  strength := by rw [awarded, awarded, points_perm same d, same.length_eq]
  reasons := (side_perm same d).map _

/-- Whole numbers may be added in any order. -/
theorem rearranges_tallied {xs ys : List Hit} (same : xs.Perm ys) :
    (tallied xs).Rearranges (tallied ys) := by
  unfold tallied
  rw [same.isEmpty_eq, points_perm same .buy, points_perm same .sell]
  split
  · exact Rearranges.refl _
  · split
    · exact rearranges_awarded same .buy
    · split
      · exact rearranges_awarded same .sell
      · exact Rearranges.refl _

/-! ### The two directions -/

theorem side_mirror (hits : List Hit) (d : Direction) :
    side (hits.map Hit.mirror) d = (side hits d.opposite).map Hit.mirror := by
  unfold side
  rw [List.filter_map]
  congr 1
  apply List.filter_congr
  intro hit _
  exact Direction.opposite_beq hit.direction d

theorem weight_mirror (hits : List Hit) (d : Direction) :
    weight (hits.map Hit.mirror) d = weight hits d.opposite := by
  unfold weight
  rw [side_mirror, List.map_map, List.length_map]
  rfl

theorem decided_mirror (hits : List Hit) (d : Direction) :
    decided (hits.map Hit.mirror) d = (decided hits d.opposite).mirror := by
  unfold decided mirror
  rw [weight_mirror, side_mirror, List.map_map, Direction.stance_mirror]
  cases d <;> rfl

/-- Whatever the strengths are, mirrored votes give the mirrored verdict. The two directions are
asked one after the other, but they cannot both outweigh each other. -/
theorem ofHits_mirror (hits : List Hit) : ofHits (hits.map Hit.mirror) = (ofHits hits).mirror := by
  unfold ofHits
  rw [List.isEmpty_map, weight_mirror, weight_mirror, decided_mirror, decided_mirror]
  change (if hits.isEmpty then _ else if weight hits .buy < weight hits .sell then
    (decided hits .sell).mirror else if weight hits .sell < weight hits .buy then
    (decided hits .buy).mirror else _) = _
  by_cases none : hits.isEmpty = true
  · rw [if_pos none, if_pos none]
    rfl
  · rw [if_neg none, if_neg none]
    by_cases buys : weight hits .sell < weight hits .buy
    · rw [if_neg (Binary64.not_lt_of_lt buys), if_pos buys, if_pos buys]
    · rw [if_neg buys, if_neg buys]
      by_cases sells : weight hits .buy < weight hits .sell
      · rw [if_pos sells, if_pos sells]
      · rw [if_neg sells, if_neg sells]
        rfl

end Verdict

theorem votes_mirror (rules : List Rule) (current previous : Annotated) :
    votes (rules.map Rule.mirror) current previous
      = (votes rules current previous).map Hit.mirror := by
  unfold votes firedOn
  rw [List.filterMap_map, List.map_filterMap, List.map_map, List.map_filterMap]
  congr 1
  funext r
  cases judged : r.judge current previous <;> simp [Rule.mirror, judged]

/-- The vote is symmetric, for any number of rules below `2 ^ 32` whose votes have whole strengths
from 0 to 100. In another order the rules give the same stance and strength, and the same reasons in
another order. With the two directions exchanged in every vote, they give the verdict with the two
directions exchanged, of the same strength and for the same reasons. -/
theorem vote_symmetric {rules : List Rule} {previous current : Annotated}
    (few : rules.length < 2 ^ 32)
    (whole : ∀ hit ∈ votes rules current previous, hit.IsWhole) (older : List Annotated) :
    let series := older ++ [previous, current]
    (∀ reordered : List Rule, reordered.Perm rules →
        (Verdict.of reordered series).Rearranges (Verdict.of rules series)) ∧
      Verdict.of (rules.map Rule.mirror) series = (Verdict.of rules series).mirror := by
  intro series
  have few_votes : (votes rules current previous).length < 2 ^ 32 :=
    (length_votes_le rules current previous).trans_lt few
  constructor
  · intro reordered same
    have permuted := votes_perm same current previous
    have whole' : ∀ hit ∈ votes reordered current previous, hit.IsWhole := by
      intro hit member
      exact whole hit (permuted.mem_iff.mp member)
    rw [Verdict.of_append, Verdict.of_append, Verdict.ofHits_eq_tallied whole few_votes,
      Verdict.ofHits_eq_tallied whole' (permuted.length_eq ▸ few_votes)]
    exact Verdict.rearranges_tallied permuted
  · rw [Verdict.of_append, Verdict.of_append, votes_mirror]
    exact Verdict.ofHits_mirror _

/-- A rule that always votes the same. -/
def Rule.steady (hit : Hit) : Rule where
  name := "steady"
  judge _ _ := some hit

/-- Two votes to buy and one to sell. -/
theorem vote_symmetric_conflict :
    let bar : Annotated := ⟨⟨.unix 0, 1, 1, 1, 1, none⟩, none, none, none, none, none, none, none⟩
    let first := Rule.steady ⟨.buy, 70, "first"⟩
    let second := Rule.steady ⟨.sell, 60, "second"⟩
    let third := Rule.steady ⟨.buy, 75, "third"⟩
    (Verdict.of [third, second, first] [bar, bar]).Rearranges
        (Verdict.of [first, second, third] [bar, bar]) ∧
      Verdict.of ([first, second, third].map Rule.mirror) [bar, bar]
        = (Verdict.of [first, second, third] [bar, bar]).mirror := by
  intro bar first second third
  have whole : ∀ hit ∈ votes [first, second, third] bar bar, hit.IsWhole := by
    intro hit member
    change hit ∈ [_, _, _] at member
    simp only [List.mem_cons, List.not_mem_nil, or_false] at member
    rcases member with rfl | rfl | rfl
    · exact ⟨70, by decide, by decide⟩
    · exact ⟨60, by decide, by decide⟩
    · exact ⟨75, by decide, by decide⟩
  have symmetric := vote_symmetric (by decide) whole []
  refine ⟨symmetric.1 _ ?_, symmetric.2⟩
  exact List.reverse_perm [first, second, third]

end PriceSignals
