/-
Module: PriceSignals.Settings
Purpose: The parameters of the indicators and of the rules, and what is demanded of them.
Main exports:
  IndicatorSettings, IndicatorSettings.fault?, IndicatorSettings.warmup, Thresholds,
  Thresholds.fault?, Settings, Settings.fault?, SettingsFault, SettingsFault.message
-/
import PriceSignals.Decimal.Style
import PriceSignals.Indicator.Contract
import PriceSignals.Proofs.FloatOrder

namespace PriceSignals

/-! ### Faults -/

/-- The periods among the settings. -/
inductive PeriodName where
  | sma
  | rsi
  | bollinger
  | macdFast
  | macdSlow
  | macdSignal
deriving Repr, DecidableEq

/-- The name of a period in files and messages. -/
def PeriodName.key : PeriodName → String
  | .sma => "sma_period"
  | .rsi => "rsi_period"
  | .bollinger => "bollinger_period"
  | .macdFast => "macd_fast"
  | .macdSlow => "macd_slow"
  | .macdSignal => "macd_signal"

/-- The periods in the order in which they are looked at. -/
def PeriodName.all : List PeriodName :=
  [.sma, .rsi, .bollinger, .macdFast, .macdSlow, .macdSignal]

/-- Every period is looked at. -/
theorem PeriodName.mem_all (name : PeriodName) : name ∈ all := by
  cases name <;> decide

/-- Why settings are refused. -/
inductive SettingsFault where
  | period (name : PeriodName)
  | multiplier (given : Float)
  | thresholds (oversold overbought : Float)

/-- The wording of a fault. -/
def SettingsFault.message : SettingsFault → String
  | .period name => name.key ++ " must be >= 1"
  | .multiplier given =>
    "bollinger_multiplier must be finite and >= 0, got " ++ Decimal.display given
  | .thresholds oversold overbought =>
    "RSI thresholds must satisfy 0 <= oversold < overbought <= 100, got "
      ++ Decimal.display oversold ++ "/" ++ Decimal.display overbought

/-! ### Indicators -/

/-- The periods of the indicators and the width of the bands. -/
structure IndicatorSettings where
  smaPeriod : UInt64 := 20
  rsiPeriod : UInt64 := 14
  bollingerPeriod : UInt64 := 20
  bollingerMultiplier : Float := 2.0
  macdFast : UInt64 := 12
  macdSlow : UInt64 := 26
  macdSignal : UInt64 := 9

namespace IndicatorSettings

/-- The period with a name. -/
def period (s : IndicatorSettings) : PeriodName → UInt64
  | .sma => s.smaPeriod
  | .rsi => s.rsiPeriod
  | .bollinger => s.bollingerPeriod
  | .macdFast => s.macdFast
  | .macdSlow => s.macdSlow
  | .macdSignal => s.macdSignal

/-- The first thing wrong with the settings: a period of zero, then a multiplier that is not
finite or is below zero. -/
def fault? (s : IndicatorSettings) : Option SettingsFault :=
  match PeriodName.all.find? fun name => s.period name == 0 with
  | some name => some (.period name)
  | none =>
    if s.bollingerMultiplier.isFinite = false ∨ s.bollingerMultiplier < 0.0 then
      some (.multiplier s.bollingerMultiplier)
    else none

/-- Settings without fault have no period of zero. -/
theorem period_pos {s : IndicatorSettings} (h : s.fault? = none) (name : PeriodName) :
    0 < (s.period name).toNat := by
  unfold fault? at h
  split at h
  · simp at h
  · rename_i none_zero
    have nonzero : s.period name ≠ 0 := by
      simpa using List.find?_eq_none.mp none_zero name name.mem_all
    refine Nat.pos_of_ne_zero fun hz => nonzero (UInt64.toNat_inj.mp ?_)
    simpa using hz

/-- Settings without fault have a usable multiplier: what is finite is not NaN, and a number that
is not below zero is at least zero. -/
theorem multiplier_ok {s : IndicatorSettings} (h : s.fault? = none) :
    Indicator.IsMultiplier s.bollingerMultiplier := by
  unfold fault? at h
  split at h
  · simp at h
  · split at h
    · simp at h
    · rename_i accepted
      obtain ⟨finite, above⟩ := not_or.mp accepted
      have finite : s.bollingerMultiplier.isFinite = true := by simpa using finite
      have number := Binary64.isNaN_eq_false_of_isFinite finite
      exact ⟨finite, (Binary64.not_lt_iff_le number (by decide)).mp above⟩

/-- The default settings have no fault. -/
theorem fault?_default : ({} : IndicatorSettings).fault? = none := by decide

/-- How many bars go by before a bar has every indicator. -/
def warmup (s : IndicatorSettings) : Nat :=
  max (s.smaPeriod.toNat - 1) (max s.rsiPeriod.toNat (min s.bollingerPeriod.toNat 2 - 1))

end IndicatorSettings

/-! ### Rules -/

/-- The readings of the relative strength index below and above which its rule fires. -/
structure Thresholds where
  oversold : Float := 30.0
  overbought : Float := 70.0

/-- What is wrong with thresholds: they have to ascend within 0 to 100. -/
def Thresholds.fault? (t : Thresholds) : Option SettingsFault :=
  if 0.0 ≤ t.oversold ∧ t.oversold < t.overbought ∧ t.overbought ≤ 100.0 then none
  else some (.thresholds t.oversold t.overbought)

/-! ### Everything -/

/-- All settings. -/
structure Settings where
  indicators : IndicatorSettings := {}
  thresholds : Thresholds := {}

/-- The first thing wrong with the settings; the indicators are looked at first. -/
def Settings.fault? (s : Settings) : Option SettingsFault :=
  s.indicators.fault? <|> s.thresholds.fault?

end PriceSignals
