/-
Module: PriceSignals.Indicator.Contract
Purpose: What the indicators demand of their parameters.
Main exports:
  Violation, Violation.message, IsMultiplier
-/

namespace PriceSignals.Indicator

/-- A demand on the parameters of an indicator that is not met. -/
inductive Violation where
  | smaPeriod
  | emaPeriod
  | rsiPeriod
  | bollingerPeriod
  | bollingerMultiplier
  | macdPeriods
deriving Repr, DecidableEq

/-- The wording of a violation. -/
def Violation.message : Violation → String
  | .smaPeriod => "SMA period must be >= 1"
  | .emaPeriod => "EMA period must be >= 1"
  | .rsiPeriod => "RSI period must be >= 1"
  | .bollingerPeriod => "Bollinger period must be >= 1"
  | .bollingerMultiplier => "Bollinger multiplier must be finite and >= 0"
  | .macdPeriods => "MACD periods must be >= 1"

/-- A number that the width of a band may be multiplied by: finite and not below zero. -/
def IsMultiplier (x : Float) : Prop := x.isFinite = true ∧ 0.0 ≤ x

instance (x : Float) : Decidable (IsMultiplier x) := by unfold IsMultiplier; infer_instance

end PriceSignals.Indicator
