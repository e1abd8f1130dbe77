/-
Module: PriceSignals.Proofs.TrendMirror
Purpose: The convergence with its two periods exchanged. Line, signal and histogram become their
  negatives as numbers, at every bar and also where they are zeros, infinities or NaN, and so the
  crossover rule votes for the other direction. All other indicators stay as they are.
Main exports:
  Binary64.Opposite, Binary64.opposite_iff, Binary64.Opposite.add, Binary64.Opposite.mul_const,
  Binary64.opposite_sub, Binary64.Opposite.lt_iff, Ema.opposite_series, Convergence.Mirrors,
  Macd.mirrors_valuesFrom, IndicatorSettings.exchanged, Annotated.Mirrors,
  Composer.mirrors_annotate, exchanged_periods_mirror
-/
import PriceSignals.Proofs.ComposerSafety
import PriceSignals.Proofs.Crossover
import PriceSignals.Proofs.FloatLevels
import PriceSignals.Proofs.Justification
import PriceSignals.Proofs.RunPairs

namespace PriceSignals

/-! ### Opposite numbers -/

namespace Binary64

/-- One double is the negative of another as a number: the sign of a zero does not count, and the
opposite of NaN is NaN. -/
def Opposite (x y : Float) : Prop := (x.isNaN = true ∧ y.isNaN = true) ∨ (y == -x) = true

/-- Opposite doubles stand at opposite places. -/
theorem opposite_iff {x y : Float} : Opposite x y ↔ level? y = (level? x).map (-·) := by
  rw [Opposite, beq_iff_level?, level?_neg_eq, ← level?_eq_none_iff, ← level?_eq_none_iff]
  cases level? x with
  | none => simp
  | some a => simp [eq_comm]

section Laws

variable {x x' y y' : Float}

theorem Opposite.neg (h : Opposite x x') : Opposite (-x) (-x') := by
  rw [opposite_iff] at h ⊢
  rw [level?_neg_eq, level?_neg_eq, h]

theorem Opposite.add (hx : Opposite x x') (hy : Opposite y y') : Opposite (x + y) (x' + y') := by
  rw [opposite_iff] at hx hy ⊢
  rw [level?_add_eq, level?_add_eq, hx, hy]
  cases level? x with
  | none => rfl
  | some a =>
      cases level? y with
      | none => rfl
      | some b => exact sumLevel?_neg a b

theorem Opposite.sub (hx : Opposite x x') (hy : Opposite y y') : Opposite (x - y) (x' - y') := by
  rw [sub_eq_add, sub_eq_add]
  exact hx.add hy.neg

theorem Opposite.mul_const (hx : Opposite x x') (k : Float) : Opposite (x * k) (x' * k) := by
  rw [opposite_iff] at hx ⊢
  rw [level?_mul_eq, level?_mul_eq, hx]
  cases level? x with
  | none => rfl
  | some a =>
      cases level? k with
      | none => rfl
      | some b => exact productLevel?_neg a b

/-- A difference is the opposite of the one taken the other way around. -/
theorem opposite_sub (x y : Float) : Opposite (x - y) (y - x) := by
  rw [opposite_iff, level?_sub_eq, level?_sub_eq]
  cases level? x with
  | none => cases level? y <;> rfl
  | some a =>
      cases level? y with
      | none => rfl
      | some b =>
          change sumLevel? b (-a) = (sumLevel? a (-b)).map (-·)
          rw [← sumLevel?_neg, neg_neg, sumLevel?_comm]

/-- Opposite numbers are in the opposite order. -/
theorem Opposite.lt_iff (hx : Opposite x x') (hy : Opposite y y') : x' < y' ↔ y < x := by
  rw [opposite_iff] at hx hy
  rw [lt_iff_level?, lt_iff_level?, hx, hy]
  cases level? x <;> cases level? y <;> simp

theorem Opposite.le_iff (hx : Opposite x x') (hy : Opposite y y') : x' ≤ y' ↔ y ≤ x := by
  rw [opposite_iff] at hx hy
  rw [le_iff_level?, le_iff_level?, hx, hy]
  cases level? x <;> cases level? y <;> simp

end Laws

end Binary64

open Binary64 (Opposite)

namespace Indicator

/-! ### Averages of opposite numbers -/

/-- The averages of opposite numbers are opposite. -/
theorem Ema.opposite_series (k : Ema) {xs ys : List Float} (values : List.Forall₂ Opposite xs ys) :
    List.Forall₂ Opposite (k.series xs) (k.series ys) :=
  k.forall₂_series (fun old new => (new.mul_const _).add (old.mul_const _)) values

/-! ### The convergence -/

/-- Line, signal and histogram are opposite to those of another convergence. -/
structure Convergence.Mirrors (m n : Convergence) : Prop where
  line : Opposite m.line n.line
  signal : Opposite m.signal n.signal
  histogram : Opposite m.histogram n.histogram

theorem opposite_lines (fast slow : List Float) :
    List.Forall₂ Opposite (fast.zipWith (· - ·) slow) (slow.zipWith (· - ·) fast) := by
  induction fast generalizing slow with
  | nil => cases slow <;> exact .nil
  | cons f fast ih =>
      cases slow with
      | nil => exact .nil
      | cons s slow => exact .cons (Binary64.opposite_sub f s) (ih slow)

/-- The convergence with its two periods exchanged. -/
def Macd.exchanged (k : Macd) : Macd :=
  ⟨k.slow, k.fast, k.signal, k.slow_pos, k.fast_pos, k.signal_pos⟩

/-- With the two averages exchanged, every line is opposite, and therefore every signal and
histogram. -/
theorem Macd.mirrors_valuesFrom (k : Macd) (fast slow : List Float) :
    List.Forall₂ (Option.Rel Convergence.Mirrors) (k.valuesFrom fast slow)
      (k.exchanged.valuesFrom slow fast) := by
  have zipped : ∀ {lines lines' signals signals' : List Float},
      List.Forall₂ Opposite lines lines' → List.Forall₂ Opposite signals signals' →
      List.Forall₂ (Option.Rel Convergence.Mirrors)
        (lines.zipWith (fun l s => some ⟨l, s, l - s⟩) signals)
        (lines'.zipWith (fun l s => some ⟨l, s, l - s⟩) signals') := by
    intro lines lines' signals signals' line signal
    induction line generalizing signals signals' with
    | nil => exact .nil
    | cons l lines ih =>
        cases signal with
        | nil => exact .nil
        | cons s signals => exact .cons (.some ⟨l, s, l.sub s⟩) (ih signals)
  have line := opposite_lines fast slow
  exact zipped line (Ema.opposite_series _ line)

end Indicator

/-! ### The rule -/

open Indicator (Convergence Macd)

/-- The rule asks whether to buy before it asks whether to sell, but the line is not on both sides
of the signal. -/
theorem Rule.judge_macdCrossover_mirror {a b a' b' : Annotated}
    (current : Option.Rel Convergence.Mirrors a.macd a'.macd)
    (previous : Option.Rel Convergence.Mirrors b.macd b'.macd) :
    (macdCrossover.judge a' b').map (·.direction)
      = ((macdCrossover.judge a b).map (·.direction)).map Direction.opposite := by
  simp only [macdCrossover]
  generalize a.macd = new?, a'.macd = new'? at current
  generalize b.macd = old?, b'.macd = old'? at previous
  cases previous with
  | none => rfl
  | @some old old' before =>
      cases current with
      | none => rfl
      | @some new new' now =>
          simp only [Option.bind_eq_bind, Option.bind_some, before.line.le_iff before.signal,
            before.signal.le_iff before.line, now.line.lt_iff now.signal,
            now.signal.lt_iff now.line]
          by_cases buys : old.line ≤ old.signal ∧ new.signal < new.line
          · have keeps : ¬ (old.signal ≤ old.line ∧ new.line < new.signal) := fun sells =>
              Binary64.not_lt_of_lt buys.2 sells.2
            rw [if_neg keeps, if_pos buys, if_pos buys]
            rfl
          · rw [if_neg buys, if_neg buys]
            split <;> rfl

/-- Over histories with opposite convergences, the rule votes at the same places. -/
theorem Rule.voteAt_macdCrossover_mirror {series series' : List Annotated}
    (records : List.Forall₂ (fun a b => Option.Rel Convergence.Mirrors a.macd b.macd) series
      series') (i : Nat) :
    macdCrossover.voteAt series' i = (macdCrossover.voteAt series i).map Direction.opposite := by
  cases i with
  | zero => rfl
  | succ i =>
      have current := rel_getElem? records (i + 1)
      have previous := rel_getElem? records i
      simp only [voteAt]
      generalize series[i + 1]? = new, series'[i + 1]? = new' at current
      generalize series[i]? = old, series'[i]? = old' at previous
      cases current with
      | none => rfl
      | some now =>
          cases previous with
          | none => rfl
          | some before =>
              have vote := judge_macdCrossover_mirror now before
              simp only [Option.map_eq_bind] at vote ⊢
              exact vote

/-! ### Two composers -/

/-- The settings with the fast and the slow period exchanged. -/
def IndicatorSettings.exchanged (s : IndicatorSettings) : IndicatorSettings :=
  { s with macdFast := s.macdSlow, macdSlow := s.macdFast }

theorem IndicatorSettings.fault?_exchanged {s : IndicatorSettings} (valid : s.fault? = none) :
    s.exchanged.fault? = none := by
  obtain ⟨positive, multiplier⟩ := fault?_eq_none_iff.mp valid
  refine fault?_eq_none_iff.mpr ⟨fun name => ?_, multiplier⟩
  cases name with
  | macdFast => exact positive .macdSlow
  | macdSlow => exact positive .macdFast
  | sma => exact positive .sma
  | rsi => exact positive .rsi
  | bollinger => exact positive .bollinger
  | macdSignal => exact positive .macdSignal

/-- Two records whose exponential averages are exchanged and whose convergences are opposite. In all
else they agree. -/
structure Annotated.Mirrors (a b : Annotated) : Prop where
  bar : a.bar = b.bar
  date : a.date = b.date
  sma : a.sma = b.sma
  emaFast : a.emaFast = b.emaSlow
  emaSlow : a.emaSlow = b.emaFast
  rsi : a.rsi = b.rsi
  bollinger : a.bollinger = b.bollinger
  macd : Option.Rel Convergence.Mirrors a.macd b.macd

namespace Composer

/-- The composer with the two exponential averages exchanged. -/
def exchanged (c : Composer) : Composer :=
  { c with emaFast := c.emaSlow, emaSlow := c.emaFast, macd := c.macd.exchanged }

/-- The records of the two runs mirror each other. -/
theorem mirrors_annotate (c : Composer) (bars : List Bar) :
    List.Forall₂ Annotated.Mirrors (c.annotate bars) (c.exchanged.annotate bars) :=
  forall₂_annotate fun {i a b} ha hb =>
    { bar := Annotated.eq_of_column
        ((c.annotate_bar bars).trans (c.exchanged.annotate_bar bars).symm) ha hb
      date := Annotated.eq_of_column
        ((c.annotate_date bars).trans (c.exchanged.annotate_date bars).symm) ha hb
      sma := Annotated.eq_of_column
        ((c.annotate_sma bars).trans (c.exchanged.annotate_sma bars).symm) ha hb
      emaFast := Annotated.eq_of_column
        ((c.annotate_emaFast bars).trans (c.exchanged.annotate_emaSlow bars).symm) ha hb
      emaSlow := Annotated.eq_of_column
        ((c.annotate_emaSlow bars).trans (c.exchanged.annotate_emaFast bars).symm) ha hb
      rsi := Annotated.eq_of_column
        ((c.annotate_rsi bars).trans (c.exchanged.annotate_rsi bars).symm) ha hb
      bollinger := Annotated.eq_of_column
        ((c.annotate_bollinger bars).trans (c.exchanged.annotate_bollinger bars).symm) ha hb
      macd := by
        refine Annotated.rel_of_columns ?_ ha hb
        rw [annotate_macd, annotate_macd]
        exact c.macd.mirrors_valuesFrom _ _ }

end Composer

/-- Exchanging the fast and the slow period mirrors the trend. Over any history, also one with
infinite closes and NaN, the two exponential averages of every record are exchanged, the line, the
signal and the histogram become opposite numbers, and the rest of the record stays as it is. The
crossover rule votes at the same places, but for the other direction. -/
theorem exchanged_periods_mirror {s : IndicatorSettings} (valid : s.fault? = none) :
    ∃ c d, Composer.make s = .ok c ∧ Composer.make s.exchanged = .ok d ∧
      ∀ bars : List Bar,
        List.Forall₂ Annotated.Mirrors (c.annotate bars) (d.annotate bars) ∧
        ∀ i, Rule.macdCrossover.voteAt (d.annotate bars) i
          = (Rule.macdCrossover.voteAt (c.annotate bars) i).map Direction.opposite := by
  have valid' := IndicatorSettings.fault?_exchanged valid
  refine ⟨_, _, Composer.make_eq_ok_iff.mpr ⟨valid, rfl⟩, Composer.make_eq_ok_iff.mpr ⟨valid', rfl⟩,
    fun bars => ?_⟩
  have records := (Composer.ofFaultless s valid).mirrors_annotate bars
  exact ⟨records, Rule.voteAt_macdCrossover_mirror (records.imp fun _ _ mirrors => mirrors.macd)⟩

/-- Two closes at which the standard periods vote to buy: exchanged, they vote to sell. -/
theorem exchanged_periods_mirror_rise :
    let s : IndicatorSettings := {}
    let bars : List Bar := [10, 12].map fun p => ⟨.unix 0, p, p, p, p, none⟩
    ∃ d, Composer.make s.exchanged = .ok d ∧
      Rule.macdCrossover.voteAt (d.annotate bars) 1 = some .sell := by
  intro s bars
  obtain ⟨c, d, made, made', runs⟩ :=
    exchanged_periods_mirror (s := s) IndicatorSettings.fault?_default
  obtain ⟨_, rfl⟩ := Composer.make_eq_ok_iff.mp made
  have buys : Rule.macdCrossover.voteAt (Composer.standard.annotate bars) 1 = some .buy := by
    decide +kernel
  exact ⟨d, made', ((runs bars).2 1).trans (congrArg (Option.map Direction.opposite) buys)⟩

end PriceSignals
