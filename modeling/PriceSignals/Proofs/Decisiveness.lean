/-
Module: PriceSignals.Proofs.Decisiveness
Purpose: The standard rules never cancel each other out. Their strengths are such that more votes
  outweigh fewer, and that one vote against one is settled by the order crossover, strength index,
  bands.
Main exports:
  Rule.vote, Rule.voters, Rule.reasonFor, Rule.HasPoints, Verdict.DecidedFor,
  Verdict.tallied_of_points_lt, Verdict.points_standard, Verdict.decidedFor_of_points_lt,
  standard_rules_decisive
-/
import PriceSignals.Proofs.Tally

namespace PriceSignals

theorem Direction.opposite_opposite (d : Direction) : d.opposite.opposite = d := by
  cases d <;> rfl

theorem Direction.stance_ne_neutral (d : Direction) : d.stance ≠ .neutral := by
  cases d <;> exact nofun

namespace Rule

/-! ### The votes of a rule -/

/-- The direction that a rule votes for, if it fires. -/
def vote (r : Rule) (current previous : Annotated) : Option Direction :=
  (r.judge current previous).map (·.direction)

/-- The reason that a rule gives for a direction, if it votes for it. -/
def reasonFor (r : Rule) (current previous : Annotated) (d : Direction) : Option String :=
  (r.judge current previous).bind fun hit => if hit.direction = d then some hit.reason else none

/-- One if a rule votes for a direction, and zero otherwise. -/
def count (r : Rule) (current previous : Annotated) (d : Direction) : Nat :=
  if r.vote current previous = some d then 1 else 0

/-- How many of some rules vote for a direction. -/
def voters (rules : List Rule) (current previous : Annotated) (d : Direction) : Nat :=
  rules.countP fun r => r.vote current previous = some d

/-- Whenever a rule fires, its vote has the same whole strength. -/
def HasPoints (r : Rule) (n : Nat) : Prop :=
  ∀ current previous hit, r.judge current previous = some hit →
    (hit.strength == Float.ofNat n) = true

/-- A rule that votes in one of two cases has one strength if both votes have it. -/
theorem strength_of_judged {first second : Prop} [Decidable first] [Decidable second]
    {buys sells hit : Hit} {strength : Float}
    (judged : (if first then some buys else if second then some sells else none) = some hit)
    (buying : buys.strength = strength) (selling : sells.strength = strength) :
    hit.strength = strength := by
  split at judged
  · cases judged
    exact buying
  · split at judged
    · cases judged
      exact selling
    · cases judged

theorem hasPoints_rsiExtremes (t : Thresholds) : (rsiExtremes t).HasPoints 70 := by
  intro current previous hit fired
  rcases Option.bind_eq_some_iff.mp fired with ⟨rsi, -, judged⟩
  have strength : hit.strength = 70.0 := strength_of_judged judged rfl rfl
  rw [strength]
  decide

theorem hasPoints_bollingerBreach : bollingerBreach.HasPoints 60 := by
  intro current previous hit fired
  rcases Option.bind_eq_some_iff.mp fired with ⟨bands, -, judged⟩
  have strength : hit.strength = 60.0 := strength_of_judged judged rfl rfl
  rw [strength]
  decide

theorem hasPoints_macdCrossover : macdCrossover.HasPoints 75 := by
  intro current previous hit fired
  rcases Option.bind_eq_some_iff.mp fired with ⟨old, -, crossed⟩
  rcases Option.bind_eq_some_iff.mp crossed with ⟨new, -, judged⟩
  have strength : hit.strength = 75.0 := strength_of_judged judged rfl rfl
  rw [strength]
  decide

section Counting

variable (r : Rule) (current previous : Annotated)

/-- A rule has one vote at most. -/
theorem count_add_le (d : Direction) :
    r.count current previous d + r.count current previous d.opposite ≤ 1 := by
  unfold count
  cases r.vote current previous with
  | none => exact Nat.zero_le 1
  | some e => cases d <;> cases e <;> decide

/-- A rule that fires without voting for one direction votes for the other. -/
theorem vote_eq_of_count {d e : Direction} (fired : r.vote current previous = some e)
    (h : r.count current previous d.opposite = 0) : e = d := by
  unfold count at h
  rw [fired] at h
  cases d <;> cases e <;> first | rfl | cases h

theorem count_of_silent (silent : r.vote current previous = none) (d : Direction) :
    r.count current previous d = 0 := by
  rw [count, silent]
  rfl

theorem voters_cons (rules : List Rule) (d : Direction) :
    voters (r :: rules) current previous d
      = r.count current previous d + voters rules current previous d := by
  unfold voters count
  simp only [List.countP_cons, decide_eq_true_eq, Nat.add_comm]

end Counting

end Rule

theorem votes_cons (r : Rule) (rules : List Rule) (current previous : Annotated) :
    votes (r :: rules) current previous
      = (r.judge current previous).toList ++ votes rules current previous := by
  unfold votes firedOn
  cases judged : r.judge current previous with
  | none => simp [judged]
  | some hit => simp [judged]

namespace Verdict

open Rule (voters)

/-! ### Points of several rules -/

theorem side_append (xs ys : List Hit) (d : Direction) :
    side (xs ++ ys) d = side xs d ++ side ys d :=
  List.filter_append _ _

theorem points_append (xs ys : List Hit) (d : Direction) :
    points (xs ++ ys) d = points xs d + points ys d := by
  unfold points
  rw [side_append, List.map_append, List.sum_append]

/-- The points of one rule. -/
theorem points_judge {r : Rule} {n : Nat} (h : r.HasPoints n) (most : n ≤ 100)
    (current previous : Annotated) (d : Direction) :
    points (r.judge current previous).toList d = n * r.count current previous d := by
  unfold Rule.count Rule.vote
  cases judged : r.judge current previous with
  | none => rfl
  | some hit =>
      have strength : hit.points = n := Hit.points_eq (h _ _ _ judged) most
      by_cases voted : hit.direction = d
      · simp [points, side, voted, strength]
      · simp [points, side, voted]

theorem length_judge (r : Rule) (current previous : Annotated) (d : Direction) :
    (r.judge current previous).toList.length
      = r.count current previous d + r.count current previous d.opposite := by
  unfold Rule.count Rule.vote
  cases r.judge current previous with
  | none => rfl
  | some hit => cases d <;> cases voted : hit.direction <;> simp [voted, Direction.opposite]

/-- Each vote is for a direction or for the other one. -/
theorem length_votes (rules : List Rule) (current previous : Annotated) (d : Direction) :
    (votes rules current previous).length
      = voters rules current previous d + voters rules current previous d.opposite := by
  induction rules with
  | nil => rfl
  | cons r rules ih =>
      rw [votes_cons, List.length_append, length_judge _ _ _ d, ih, Rule.voters_cons,
        Rule.voters_cons]
      omega

/-- The reasons of a verdict are those that the rules give for its direction, in their order. -/
theorem reasons_side_votes (rules : List Rule) (current previous : Annotated) (d : Direction) :
    (side (votes rules current previous) d).map (·.reason)
      = rules.filterMap fun r => r.reasonFor current previous d := by
  induction rules with
  | nil => rfl
  | cons r rules ih =>
      rw [votes_cons, side_append, List.map_append, ih, List.filterMap_cons]
      unfold Rule.reasonFor
      cases r.judge current previous with
      | none => rfl
      | some hit =>
          by_cases voted : hit.direction = d
          · simp [side, voted]
          · simp [side, voted]

/-- A direction with more points wins. -/
theorem tallied_of_points_lt {hits : List Hit} {d : Direction}
    (wins : points hits d.opposite < points hits d) : tallied hits = awarded hits d := by
  have voted : ¬ hits.isEmpty = true := by
    intro none
    rw [List.isEmpty_iff.mp none] at wins
    exact absurd wins (Nat.lt_irrefl 0)
  unfold tallied
  rw [if_neg voted]
  cases d with
  | buy => exact if_pos wins
  | sell =>
      have loses : ¬ points hits .sell < points hits .buy := Nat.lt_asymm wins
      rw [if_neg loses]
      exact if_pos wins

/-! ### The standard rules -/

section Standard

variable (t : Thresholds) (current previous : Annotated)

/-- What the standard rules promise of a verdict for a direction. -/
structure DecidedFor (v : Verdict) (d : Direction) : Prop where
  stance : v.stance = d.stance
  /-- More rules outvote fewer. -/
  majority : ∀ e : Direction,
    voters (Rule.standard t) current previous e.opposite
        < voters (Rule.standard t) current previous e → e = d
  /-- Of one rule against one, the first in this order decides. -/
  precedence : voters (Rule.standard t) current previous .buy = 1 →
    voters (Rule.standard t) current previous .sell = 1 →
      [Rule.macdCrossover, Rule.rsiExtremes t, Rule.bollingerBreach].findSome?
        (·.vote current previous) = some d
  score : 35 ≤ v.strength.toNat ∧ v.strength.toNat ≤ 75
  /-- The reasons are those for the direction, in this order. -/
  reasons : v.reasons
    = [Rule.rsiExtremes t, Rule.bollingerBreach, Rule.macdCrossover].filterMap
        (·.reasonFor current previous d)

theorem isWhole_votes_standard :
    ∀ hit ∈ votes (Rule.standard t) current previous, hit.IsWhole := by
  intro hit member
  rcases mem_votes.mp member with ⟨r, standard, judged⟩
  simp only [Rule.standard, List.mem_cons, List.not_mem_nil, or_false] at standard
  rcases standard with rfl | rfl | rfl
  · exact ⟨70, by decide, Rule.hasPoints_rsiExtremes t _ _ _ judged⟩
  · exact ⟨60, by decide, Rule.hasPoints_bollingerBreach _ _ _ judged⟩
  · exact ⟨75, by decide, Rule.hasPoints_macdCrossover _ _ _ judged⟩

theorem points_standard (d : Direction) :
    points (votes (Rule.standard t) current previous) d
      = 70 * (Rule.rsiExtremes t).count current previous d
        + 60 * Rule.bollingerBreach.count current previous d
        + 75 * Rule.macdCrossover.count current previous d := by
  unfold Rule.standard
  rw [votes_cons, votes_cons, votes_cons, points_append, points_append, points_append,
    points_judge (Rule.hasPoints_rsiExtremes t) (by decide),
    points_judge Rule.hasPoints_bollingerBreach (by decide),
    points_judge Rule.hasPoints_macdCrossover (by decide), Nat.add_assoc]
  rfl

theorem voters_standard (d : Direction) :
    voters (Rule.standard t) current previous d
      = (Rule.rsiExtremes t).count current previous d
        + Rule.bollingerBreach.count current previous d
        + Rule.macdCrossover.count current previous d := by
  unfold Rule.standard
  rw [Rule.voters_cons, Rule.voters_cons, Rule.voters_cons, Nat.add_assoc]
  rfl

variable {t current previous}

/-- Whatever the votes are, the two directions differ in points. -/
theorem exists_winner_standard (fired : votes (Rule.standard t) current previous ≠ []) :
    ∃ d : Direction, points (votes (Rule.standard t) current previous) d.opposite
      < points (votes (Rule.standard t) current previous) d := by
  have some_vote := List.length_pos_iff.mpr fired
  have rsi := (Rule.rsiExtremes t).count_add_le current previous .buy
  have bands := Rule.bollingerBreach.count_add_le current previous .buy
  have macd := Rule.macdCrossover.count_add_le current previous .buy
  rw [length_votes _ _ _ .buy, voters_standard, voters_standard] at some_vote
  have differ : points (votes (Rule.standard t) current previous) .buy
      ≠ points (votes (Rule.standard t) current previous) Direction.buy.opposite := by
    rw [points_standard, points_standard]
    omega
  rcases Nat.lt_or_gt_of_ne differ with sells | buys
  · exact ⟨.sell, sells⟩
  · exact ⟨.buy, buys⟩

/-- The direction with more points has all that is promised of a winner. Everything is said of the
counts of the three rules, of which each has one vote at most. -/
theorem decidedFor_of_points_lt {d : Direction}
    (wins : points (votes (Rule.standard t) current previous) d.opposite
      < points (votes (Rule.standard t) current previous) d) :
    DecidedFor t current previous (awarded (votes (Rule.standard t) current previous) d) d := by
  have rsi := (Rule.rsiExtremes t).count_add_le current previous d
  have bands := Rule.bollingerBreach.count_add_le current previous d
  have macd := Rule.macdCrossover.count_add_le current previous d
  have length := length_votes (Rule.standard t) current previous d
  have sum := points_standard t current previous d
  rw [voters_standard, voters_standard] at length
  rw [points_standard, points_standard] at wins
  constructor
  case stance => rfl
  case majority =>
    intro e more
    rw [voters_standard, voters_standard] at more
    by_contra other
    rw [Direction.eq_opposite_of_ne other, Direction.opposite_opposite] at more
    omega
  case precedence =>
    intro one_buys one_sells
    have one (e : Direction) : voters (Rule.standard t) current previous e = 1 := by
      cases e with
      | buy => exact one_buys
      | sell => exact one_sells
    have ours := one d
    have theirs := one d.opposite
    rw [voters_standard] at ours theirs
    have macd_ours : Rule.macdCrossover.count current previous d.opposite = 0 := by omega
    rw [List.findSome?_cons]
    cases crossed : Rule.macdCrossover.vote current previous with
    | some e => rw [Rule.vote_eq_of_count _ _ _ crossed macd_ours]
    | none =>
        have macd_silent := Rule.macdCrossover.count_of_silent current previous crossed d
        have rsi_ours : (Rule.rsiExtremes t).count current previous d.opposite = 0 := by omega
        dsimp only
        rw [List.findSome?_cons]
        cases extreme : (Rule.rsiExtremes t).vote current previous with
        | some e => rw [Rule.vote_eq_of_count _ _ _ extreme rsi_ours]
        | none =>
            have rsi_silent := (Rule.rsiExtremes t).count_of_silent current previous extreme d
            omega
  case score =>
    have voted : 0 < (votes (Rule.standard t) current previous).length := by omega
    have least : 35 * (votes (Rule.standard t) current previous).length
        ≤ points (votes (Rule.standard t) current previous) d := by
      omega
    have most : points (votes (Rule.standard t) current previous) d
        ≤ 75 * (votes (Rule.standard t) current previous).length := by
      omega
    have low := le_share voted least
    have high := share_le voted most
    rw [awarded, UInt8.toNat_ofNat']
    omega
  case reasons => exact reasons_side_votes (Rule.standard t) current previous d

end Standard

end Verdict

theorem votes_eq_nil_iff {rules : List Rule} {current previous : Annotated} :
    votes rules current previous = [] ↔ ∀ r ∈ rules, r.judge current previous = none := by
  simp [votes, firedOn, List.filterMap_eq_nil_iff]

/-- The standard rules are decisive on any two bars, under any thresholds. The verdict says that
there are no clear signals exactly where no rule fires, and otherwise it is for a direction: for the
one with more rules, or, of one rule against one, for that of the first rule in the order crossover,
strength index, bands. Then its score is from 35 to 75, and its reasons are those of the direction.
Mixed signals are never reported. -/
theorem standard_rules_decisive (t : Thresholds) (older : List Annotated)
    (previous current : Annotated) :
    let verdict := Verdict.of (Rule.standard t) (older ++ [previous, current])
    (verdict = Verdict.neutral 0 "No clear signals"
        ↔ ∀ r ∈ Rule.standard t, r.judge current previous = none) ∧
      ((∀ r ∈ Rule.standard t, r.judge current previous = none) ∨
        ∃ d : Direction, verdict.DecidedFor t current previous d) ∧
      verdict ≠ Verdict.neutral 50 "Mixed signals" := by
  intro verdict
  have few : (votes (Rule.standard t) current previous).length < 2 ^ 32 := by
    have three : (Rule.standard t).length = 3 := rfl
    have upto := length_votes_le (Rule.standard t) current previous
    omega
  have counted : verdict = Verdict.tallied (votes (Rule.standard t) current previous) := by
    rw [← Verdict.ofHits_eq_tallied (Verdict.isWhole_votes_standard t current previous) few]
    exact Verdict.of_append (Rule.standard t) older previous current
  by_cases silent : votes (Rule.standard t) current previous = []
  · have neutral : verdict = Verdict.neutral 0 "No clear signals" := by
      rw [counted, silent]
      rfl
    refine ⟨iff_of_true neutral (votes_eq_nil_iff.mp silent), .inl (votes_eq_nil_iff.mp silent), ?_⟩
    rw [neutral]
    decide
  · rcases Verdict.exists_winner_standard silent with ⟨d, wins⟩
    have decided := Verdict.decidedFor_of_points_lt wins
    rw [← Verdict.tallied_of_points_lt wins, ← counted] at decided
    have advises : verdict.stance ≠ .neutral := by
      rw [decided.stance]
      exact d.stance_ne_neutral
    refine ⟨iff_of_false ?_ (mt votes_eq_nil_iff.mpr silent), .inr ⟨d, decided⟩, ?_⟩
    · intro neutral
      exact advises (congrArg Verdict.stance neutral)
    · intro mixed
      exact advises (congrArg Verdict.stance mixed)

end PriceSignals
