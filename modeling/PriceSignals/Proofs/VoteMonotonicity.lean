/-
Module: PriceSignals.Proofs.VoteMonotonicity
Purpose: What one more vote does to a verdict. It never moves the verdict away from its own
  direction, and where the verdict stays with the other one, it makes that no stronger.
Main exports:
  Stance.rank, Verdict.share_succ_le, Verdict.points_insert, Verdict.stance_tallied_iff,
  Verdict.stance_of_vote, Verdict.stance_of_vote_against, Verdict.strength_of_vote_against,
  more_votes_move_verdict
-/
import PriceSignals.Proofs.Decisiveness

namespace PriceSignals

/-- The place of a stance between selling and buying. -/
def Stance.rank : Stance → Nat
  | .sell => 0
  | .neutral => 1
  | .buy => 2

/-- A stance is at most one that buys if it does, and sells only if it does. -/
theorem Stance.rank_le {s t : Stance} (buys : s = .buy → t = .buy) (sells : t = .sell → s = .sell) :
    s.rank ≤ t.rank := by
  cases s with
  | sell => exact Nat.zero_le _
  | buy => rw [buys rfl]
  | neutral =>
      cases t with
      | sell => exact absurd (sells rfl) nofun
      | neutral => exact Nat.le_refl _
      | buy => decide

namespace Verdict

/-! ### Points and shares -/

/-- Among more votes the same points have no greater share. -/
theorem share_succ_le (points : Nat) {votes : Nat} (voted : 0 < votes) :
    share points (votes + 1) ≤ share points votes := by
  have reached := (le_share_iff (Nat.succ_pos votes)).mp (Nat.le_refl (share points (votes + 1)))
  rw [le_share_iff voted]
  rw [Nat.succ_eq_add_one, Nat.mul_succ] at reached
  -- A share of zero is reached by any points, and a larger one is worth more than the vote costs.
  rcases Nat.eq_zero_or_pos (share points (votes + 1)) with none | some_share
  · rw [none]
    omega
  · omega

/-- A vote adds its points to its own direction and none to the other one. -/
theorem points_insert (older newer : List Hit) (hit : Hit) (d : Direction) :
    points (older ++ hit :: newer) d
      = points (older ++ newer) d + if hit.direction = d then hit.points else 0 := by
  have single : points [hit] d = if hit.direction = d then hit.points else 0 := by
    by_cases own : hit.direction = d <;> simp [points, side, own]
  rw [List.append_cons, points_append, points_append, points_append, single]
  omega

section Insert

variable {older newer : List Hit} {hit : Hit} {d : Direction}

theorem points_le_insert : points (older ++ newer) d ≤ points (older ++ hit :: newer) d := by
  rw [points_insert]
  exact Nat.le_add_right _ _

theorem points_insert_opposite (voted : hit.direction = d) :
    points (older ++ hit :: newer) d.opposite = points (older ++ newer) d.opposite := by
  have other : hit.direction ≠ d.opposite := by
    rw [voted]
    cases d <;> exact nofun
  rw [points_insert, if_neg other, Nat.add_zero]

/-! ### Verdicts -/

/-- The verdict is for the direction that has more points. -/
theorem stance_tallied_iff {hits : List Hit} {d : Direction} :
    (tallied hits).stance = d.stance ↔ points hits d.opposite < points hits d := by
  constructor
  · intro stance
    unfold tallied at stance
    split at stance
    · exact absurd stance.symm d.stance_ne_neutral
    · split at stance
      · rename_i buys
        cases d with
        | buy => exact buys
        | sell => cases stance
      · split at stance
        · rename_i sells
          cases d with
          | buy => cases stance
          | sell => exact sells
        · exact absurd stance.symm d.stance_ne_neutral
  · intro more
    rw [tallied_of_points_lt more]
    rfl

/-- A vote for a direction takes no verdict away from it. -/
theorem stance_of_vote (voted : hit.direction = d)
    (stance : (tallied (older ++ newer)).stance = d.stance) :
    (tallied (older ++ hit :: newer)).stance = d.stance := by
  rw [stance_tallied_iff] at stance ⊢
  rw [points_insert_opposite voted]
  exact Nat.lt_of_lt_of_le stance points_le_insert

/-- A vote for a direction gives no verdict to the other one. -/
theorem stance_of_vote_against (voted : hit.direction = d)
    (stance : (tallied (older ++ hit :: newer)).stance = d.opposite.stance) :
    (tallied (older ++ newer)).stance = d.opposite.stance := by
  rw [stance_tallied_iff, Direction.opposite_opposite] at stance ⊢
  rw [points_insert_opposite voted] at stance
  exact Nat.lt_of_le_of_lt points_le_insert stance

/-- A vote against a verdict that stands makes it no stronger: the points for it stay, but they are
shared among more votes. -/
theorem strength_of_vote_against (voted : hit.direction = d)
    (whole : ∀ h ∈ older ++ newer, h.IsWhole)
    (stance : (tallied (older ++ hit :: newer)).stance = d.opposite.stance) :
    (tallied (older ++ hit :: newer)).strength ≤ (tallied (older ++ newer)).strength := by
  have before := stance_tallied_iff.mp (stance_of_vote_against voted stance)
  have after := stance_tallied_iff.mp stance
  have votes : (older ++ hit :: newer).length = (older ++ newer).length + 1 := by
    simp only [List.length_append, List.length_cons]
    omega
  have some_vote : 0 < (older ++ newer).length := by
    rw [List.length_pos_iff]
    intro none
    rw [none] at before
    exact absurd before (Nat.lt_irrefl 0)
  have most := share_le some_vote (points_le whole d.opposite)
  have less := share_succ_le (points (older ++ newer) d.opposite) some_vote
  rw [tallied_of_points_lt before, tallied_of_points_lt after, UInt8.le_iff_toNat_le, awarded,
    awarded, UInt8.toNat_ofNat', UInt8.toNat_ofNat', points_insert_opposite voted, votes]
  omega

end Insert

end Verdict

/-- One more vote moves a verdict the right way. Given any votes of whole strengths from 0 to 100,
fewer than `2 ^ 32` of them, and one more at any place among them: a vote to buy never moves the
stance down, in the order from selling to buying, and if the verdict is to sell before and after,
its strength does not grow. A vote to sell never moves the stance up, and if the verdict is to buy
before and after, its strength does not grow. -/
theorem more_votes_move_verdict {older newer : List Hit} {hit : Hit}
    (whole : ∀ h ∈ older ++ hit :: newer, h.IsWhole) (few : (older ++ newer).length < 2 ^ 32) :
    let before := Verdict.ofHits (older ++ newer)
    let after := Verdict.ofHits (older ++ hit :: newer)
    (hit.direction = .buy →
        before.stance.rank ≤ after.stance.rank ∧
          (before.stance = .sell → after.stance = .sell → after.strength ≤ before.strength)) ∧
      (hit.direction = .sell →
        after.stance.rank ≤ before.stance.rank ∧
          (before.stance = .buy → after.stance = .buy → after.strength ≤ before.strength)) := by
  intro before after
  have whole_before : ∀ h ∈ older ++ newer, h.IsWhole := by
    intro h member
    refine whole h ?_
    rw [List.mem_append, List.mem_cons]
    exact (List.mem_append.mp member).imp_right .inr
  have counted : before = Verdict.tallied (older ++ newer) :=
    Verdict.ofHits_eq_tallied whole_before few
  have counted_after : after = Verdict.tallied (older ++ hit :: newer) := by
    refine Verdict.ofHits_eq_tallied_of_le whole ?_
    simp only [List.length_append, List.length_cons] at few ⊢
    omega
  rw [counted, counted_after]
  constructor
  · intro buys
    refine ⟨Stance.rank_le ?_ ?_, fun _ => ?_⟩
    · exact Verdict.stance_of_vote buys
    · exact Verdict.stance_of_vote_against buys
    · exact Verdict.strength_of_vote_against buys whole_before
  · intro sells
    refine ⟨Stance.rank_le ?_ ?_, fun _ => ?_⟩
    · exact Verdict.stance_of_vote_against sells
    · exact Verdict.stance_of_vote sells
    · exact Verdict.strength_of_vote_against sells whole_before

/-- A vote to buy among two votes to sell leaves a weaker verdict to sell, and a vote to sell turns
a narrow verdict to buy. -/
theorem more_votes_move_verdict_conflict :
    let first : Hit := ⟨.sell, 70, "first"⟩
    let second : Hit := ⟨.sell, 0, "second"⟩
    let buying : Hit := ⟨.buy, 60, "buying"⟩
    (Verdict.ofHits [first, buying, second]).strength ≤ (Verdict.ofHits [first, second]).strength ∧
      (Verdict.ofHits [buying, first]).stance.rank ≤ (Verdict.ofHits [buying]).stance.rank := by
  intro first second buying
  have first_whole : first.IsWhole := ⟨70, by decide, by decide⟩
  have second_whole : second.IsWhole := ⟨0, by decide, by decide⟩
  have buying_whole : buying.IsWhole := ⟨60, by decide, by decide⟩
  constructor
  · have whole : ∀ h ∈ [first] ++ buying :: [second], h.IsWhole := by
      simp [first_whole, second_whole, buying_whole]
    exact ((more_votes_move_verdict whole (by decide)).1 rfl).2 (by decide +kernel)
      (by decide +kernel)
  · have whole : ∀ h ∈ [buying] ++ first :: [], h.IsWhole := by
      simp [first_whole, buying_whole]
    exact ((more_votes_move_verdict whole (by decide)).2 rfl).1

end PriceSignals
