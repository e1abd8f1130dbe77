/-
Module: PriceSignals.Proofs.SettingsChecks
Purpose: Settings are checked part by part, and the first part that is wrong is told. Nothing else
  is wrong with settings.
Main exports:
  PeriodName.place, Settings.HasPeriod, Settings.HasMultiplier, Settings.HasThresholds,
  Settings.IsSound, Settings.FirstFault, Settings.fault?_eq_none_iff,
  Settings.fault?_eq_none_iff_isSound, Settings.FirstFault.unique, Settings.fault?_eq_some_iff,
  Settings.FirstFault.exists
-/
import PriceSignals.Proofs.ComposerSafety

namespace PriceSignals

/-- The place of a period in the order in which they are looked at. -/
def PeriodName.place : PeriodName → Nat
  | .sma => 0
  | .rsi => 1
  | .bollinger => 2
  | .macdFast => 3
  | .macdSlow => 4
  | .macdSignal => 5

/-- Periods have different places. -/
theorem PeriodName.place_injective : Function.Injective place := by
  intro a b same
  cases a <;> cases b <;> first | rfl | exact absurd same (by decide)

namespace Settings

/-- A period is at least one. -/
def HasPeriod (s : Settings) (name : PeriodName) : Prop := 1 ≤ (s.indicators.period name).toNat

/-- The multiplier is finite and at least zero. -/
def HasMultiplier (s : Settings) : Prop :=
  s.indicators.bollingerMultiplier.isFinite = true ∧ 0.0 ≤ s.indicators.bollingerMultiplier

/-- The thresholds ascend within 0 to 100. -/
def HasThresholds (s : Settings) : Prop :=
  0.0 ≤ s.thresholds.oversold ∧ s.thresholds.oversold < s.thresholds.overbought ∧
    s.thresholds.overbought ≤ 100.0

/-- Nothing is wrong with settings. -/
structure IsSound (s : Settings) : Prop where
  periods : ∀ name, s.HasPeriod name
  multiplier : s.HasMultiplier
  thresholds : s.HasThresholds

instance (s : Settings) (name : PeriodName) : Decidable (s.HasPeriod name) :=
  inferInstanceAs (Decidable (_ ≤ _))

instance (s : Settings) : Decidable s.HasMultiplier := inferInstanceAs (Decidable (_ ∧ _))

instance (s : Settings) : Decidable s.HasThresholds := inferInstanceAs (Decidable (_ ∧ _ ∧ _))

instance (s : Settings) : Decidable s.IsSound :=
  decidable_of_iff
    ((∀ name ∈ PeriodName.all, s.HasPeriod name) ∧ s.HasMultiplier ∧ s.HasThresholds)
    ⟨fun ⟨periods, multiplier, thresholds⟩ =>
        ⟨fun name => periods name name.mem_all, multiplier, thresholds⟩,
      fun sound => ⟨fun name _ => sound.periods name, sound.multiplier, sound.thresholds⟩⟩

/-- The first thing that is wrong with settings: a period; the multiplier, if no period is wrong;
the thresholds, if the multiplier is not wrong either. -/
inductive FirstFault (s : Settings) : SettingsFault → Prop where
  | period {name : PeriodName} (wrong : ¬ s.HasPeriod name)
      (first : ∀ other : PeriodName, other.place < name.place → s.HasPeriod other) :
      FirstFault s (.period name)
  | multiplier (periods : ∀ name, s.HasPeriod name) (wrong : ¬ s.HasMultiplier) :
      FirstFault s (.multiplier s.indicators.bollingerMultiplier)
  | thresholds (periods : ∀ name, s.HasPeriod name) (multiplier : s.HasMultiplier)
      (wrong : ¬ s.HasThresholds) :
      FirstFault s (.thresholds s.thresholds.oversold s.thresholds.overbought)

variable {s : Settings}

/-! ### Sound settings -/

theorem thresholds_fault?_eq_none_iff : s.thresholds.fault? = none ↔ s.HasThresholds := by
  unfold Thresholds.fault? HasThresholds
  split
  · rename_i ordered
    exact iff_of_true rfl ordered
  · rename_i wrong
    exact iff_of_false nofun wrong

/-- Settings are faultless where both of their parts are. -/
theorem fault?_eq_none_iff :
    s.fault? = none ↔ s.indicators.fault? = none ∧ s.thresholds.fault? = none := by
  unfold fault?
  cases s.indicators.fault? <;> simp

/-- Settings pass the checks exactly where nothing is wrong with them. -/
theorem fault?_eq_none_iff_isSound : s.fault? = none ↔ s.IsSound := by
  rw [fault?_eq_none_iff, IndicatorSettings.fault?_eq_none_iff, thresholds_fault?_eq_none_iff]
  constructor
  · rintro ⟨⟨periods, multiplier⟩, thresholds⟩
    exact ⟨periods, multiplier, thresholds⟩
  · rintro ⟨periods, multiplier, thresholds⟩
    exact ⟨⟨periods, multiplier⟩, thresholds⟩

/-! ### Faults -/

theorem hasPeriod_of_ne_zero {name : PeriodName} (some_period : s.indicators.period name ≠ 0) :
    s.HasPeriod name := by
  apply Nat.one_le_iff_ne_zero.mpr
  exact fun none => some_period (UInt64.toNat_inj.mp none)

/-- The periods are looked at in the order of their places. -/
theorem pairwise_all : PeriodName.all.Pairwise fun a b => a.place < b.place := by decide

/-- Periods that are looked at earlier stand in front. -/
theorem mem_front_of_place_lt {name other : PeriodName} {front behind : List PeriodName}
    (order : PeriodName.all = front ++ name :: behind) (earlier : other.place < name.place) :
    other ∈ front := by
  have known := other.mem_all
  have places := pairwise_all
  rw [order] at known places
  obtain inside | inside := List.mem_append.mp known
  · exact inside
  · have later := (List.pairwise_cons.mp (List.pairwise_append.mp places).2.1).1
    obtain rfl | inside := List.mem_cons.mp inside
    · exact absurd earlier (Nat.lt_irrefl _)
    · exact absurd earlier (Nat.lt_asymm (later other inside))

/-- The first period of zero is told. -/
theorem firstFault_of_find? {name : PeriodName}
    (found : (PeriodName.all.find? fun name => s.indicators.period name == 0) = some name) :
    s.FirstFault (.period name) := by
  obtain ⟨zero, front, behind, order, fine⟩ := List.find?_eq_some_iff_append.mp found
  have zero : s.indicators.period name = 0 := eq_of_beq zero
  refine .period ?_ fun other earlier => ?_
  · unfold HasPeriod
    rw [zero]
    decide
  · have some_period := fine other (mem_front_of_place_lt order earlier)
    exact hasPeriod_of_ne_zero (by simpa using some_period)

/-- What the checks of the indicators tell is the first thing that is wrong. -/
theorem firstFault_of_indicators {fault : SettingsFault}
    (found : s.indicators.fault? = some fault) : s.FirstFault fault := by
  unfold IndicatorSettings.fault? at found
  split at found
  · rename_i zero
    obtain rfl := Option.some.inj found
    exact firstFault_of_find? zero
  · rename_i none_zero
    split at found
    · rename_i refused
      obtain rfl := Option.some.inj found
      refine .multiplier (fun name => ?_) fun ⟨finite, above⟩ => ?_
      · have some_period := List.find?_eq_none.mp none_zero name name.mem_all
        exact hasPeriod_of_ne_zero (by simpa using some_period)
      · obtain infinite | below := refused
        · exact Bool.false_ne_true (infinite.symm.trans finite)
        · exact Binary64.not_le_of_lt below above
    · cases found

/-- What the checks of the thresholds tell is wrong. -/
theorem wrong_of_thresholds {fault : SettingsFault} (found : s.thresholds.fault? = some fault) :
    ¬ s.HasThresholds ∧ fault = .thresholds s.thresholds.oversold s.thresholds.overbought := by
  unfold Thresholds.fault? at found
  split at found
  · cases found
  · rename_i wrong
    exact ⟨wrong, (Option.some.inj found).symm⟩

/-- What the checks tell is the first thing that is wrong. -/
theorem firstFault_of_fault? {fault : SettingsFault} (found : s.fault? = some fault) :
    s.FirstFault fault := by
  unfold fault? at found
  cases first : s.indicators.fault? with
  | some fault' =>
      rw [first] at found
      obtain rfl : fault' = fault := Option.some.inj found
      exact firstFault_of_indicators first
  | none =>
      rw [first] at found
      obtain ⟨periods, multiplier⟩ := IndicatorSettings.fault?_eq_none_iff.mp first
      obtain ⟨wrong, rfl⟩ := wrong_of_thresholds found
      exact .thresholds periods multiplier wrong

/-- Only one thing is the first that is wrong. -/
theorem FirstFault.unique {fault fault' : SettingsFault} (first : s.FirstFault fault)
    (first' : s.FirstFault fault') : fault = fault' := by
  cases first with
  | @period name wrong earlier =>
      cases first' with
      | @period name' wrong' earlier' =>
          obtain before | same | behind := Nat.lt_trichotomy name.place name'.place
          · exact absurd (earlier' name before) wrong
          · rw [PeriodName.place_injective same]
          · exact absurd (earlier name' behind) wrong'
      | multiplier periods _ => exact absurd (periods name) wrong
      | thresholds periods _ _ => exact absurd (periods name) wrong
  | multiplier periods wrong =>
      cases first' with
      | @period name' wrong' _ => exact absurd (periods name') wrong'
      | multiplier _ _ => rfl
      | thresholds _ multiplier _ => exact absurd multiplier wrong
  | thresholds periods multiplier _ =>
      cases first' with
      | @period name' wrong' _ => exact absurd (periods name') wrong'
      | multiplier _ wrong' => exact absurd multiplier wrong'
      | thresholds _ _ _ => rfl

/-- Nothing is the first thing that is wrong with sound settings. -/
theorem FirstFault.not_isSound {fault : SettingsFault} (first : s.FirstFault fault) :
    ¬ s.IsSound := by
  intro sound
  cases first with
  | period wrong _ => exact wrong (sound.periods _)
  | multiplier _ wrong => exact wrong sound.multiplier
  | thresholds _ _ wrong => exact wrong sound.thresholds

/-- The checks tell the first thing that is wrong, and nothing else. -/
theorem fault?_eq_some_iff {fault : SettingsFault} :
    s.fault? = some fault ↔ s.FirstFault fault := by
  constructor
  · exact firstFault_of_fault?
  · intro first
    have refused : s.fault? ≠ none :=
      fun none_found => first.not_isSound (fault?_eq_none_iff_isSound.mp none_found)
    obtain ⟨other, found⟩ := Option.ne_none_iff_exists'.mp refused
    rw [found, (firstFault_of_fault? found).unique first]

/-- With settings that are not sound, there is a first thing that is wrong. -/
theorem FirstFault.exists (unsound : ¬ s.IsSound) : ∃ fault, s.FirstFault fault := by
  have refused : s.fault? ≠ none :=
    fun none_found => unsound (fault?_eq_none_iff_isSound.mp none_found)
  obtain ⟨fault, found⟩ := Option.ne_none_iff_exists'.mp refused
  exact ⟨fault, firstFault_of_fault? found⟩

end Settings
end PriceSignals
