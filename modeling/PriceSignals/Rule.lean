/-
Module: PriceSignals.Rule
Purpose: Rules that look at the two latest bars and may vote to buy or to sell.
Main exports:
  Direction, Hit, Rule, Rule.rsiExtremes, Rule.bollingerBreach, Rule.macdCrossover, Rule.standard
-/
import PriceSignals.Annotation

namespace PriceSignals

/-- What a rule votes for. -/
inductive Direction where
  | buy
  | sell
deriving Repr, DecidableEq

/-- The vote of a rule that fired: its direction, its weight and the reason for it. -/
structure Hit where
  direction : Direction
  strength : Float
  reason : String

/-- A rule is given the current and the previous bar and may fire. -/
structure Rule where
  name : String
  judge : Annotated → Annotated → Option Hit

namespace Rule

/-- Fires where the relative strength index is outside its thresholds. -/
def rsiExtremes (t : Thresholds) : Rule where
  name := "rsi_extremes"
  judge current _ := do
    let rsi ← current.rsi
    if rsi < t.oversold then
      some ⟨.buy, 70.0, "RSI oversold (<" ++ Decimal.display t.oversold ++ ")"⟩
    else if t.overbought < rsi then
      some ⟨.sell, 70.0, "RSI overbought (>" ++ Decimal.display t.overbought ++ ")"⟩
    else none

/-- Fires where the close is outside the bands. -/
def bollingerBreach : Rule where
  name := "bollinger_breach"
  judge current _ := do
    let bands ← current.bollinger
    if current.bar.close < bands.lower then
      some ⟨.buy, 60.0, "Price below lower Bollinger Band"⟩
    else if bands.upper < current.bar.close then
      some ⟨.sell, 60.0, "Price above upper Bollinger Band"⟩
    else none

/-- Fires where the line leaves the signal for the other side; before, the two may touch. -/
def macdCrossover : Rule where
  name := "macd_crossover"
  judge current previous := do
    let old ← previous.macd
    let new ← current.macd
    if old.line ≤ old.signal ∧ new.signal < new.line then
      some ⟨.buy, 75.0, "MACD bullish crossover"⟩
    else if old.signal ≤ old.line ∧ new.line < new.signal then
      some ⟨.sell, 75.0, "MACD bearish crossover"⟩
    else none

/-- The three rules for some thresholds. -/
def standard (t : Thresholds) : List Rule := [rsiExtremes t, bollingerBreach, macdCrossover]

end Rule

end PriceSignals
