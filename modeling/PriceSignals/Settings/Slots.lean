/-
Module: PriceSignals.Settings.Slots
Purpose: The fields of the settings, whatever format they are read from.
Main exports:
  IndicatorSettings.slots, Thresholds.slots, Settings.slots
-/
import PriceSignals.Data.Slot
import PriceSignals.Settings

namespace PriceSignals

variable {δ ε : Type}

/-- A period as a field. -/
def IndicatorSettings.periodSlot (word : δ → Except ε UInt64) (name : PeriodName)
    (set : IndicatorSettings → UInt64 → IndicatorSettings) : Data.Slot IndicatorSettings δ ε where
  name := name.key
  fill s v := do
    let n ← word v
    return set s n

/-- The fields of the indicators' settings, given how periods and numbers are read. -/
def IndicatorSettings.slots (word : δ → Except ε UInt64) (float : δ → Except ε Float) :
    List (Data.Slot IndicatorSettings δ ε) :=
  [periodSlot word .sma fun s n => { s with smaPeriod := n },
    periodSlot word .rsi fun s n => { s with rsiPeriod := n },
    periodSlot word .bollinger fun s n => { s with bollingerPeriod := n },
    { name := "bollinger_multiplier", fill := fun s v => do
      let x ← float v
      return { s with bollingerMultiplier := x } },
    periodSlot word .macdFast fun s n => { s with macdFast := n },
    periodSlot word .macdSlow fun s n => { s with macdSlow := n },
    periodSlot word .macdSignal fun s n => { s with macdSignal := n }]

/-- The fields of the thresholds, given how numbers are read. -/
def Thresholds.slots (float : δ → Except ε Float) : List (Data.Slot Thresholds δ ε) :=
  [{ name := "rsi_oversold", fill := fun t v => do
      let x ← float v
      return { t with oversold := x } },
    { name := "rsi_overbought", fill := fun t v => do
      let x ← float v
      return { t with overbought := x } }]

/-- The two parts of the settings, given how each is read. -/
def Settings.slots (indicators : δ → Except ε IndicatorSettings)
    (thresholds : δ → Except ε Thresholds) : List (Data.Slot Settings δ ε) :=
  [{ name := "indicators", fill := fun s v => do
      let x ← indicators v
      return { s with indicators := x } },
    { name := "thresholds", fill := fun s v => do
      let x ← thresholds v
      return { s with thresholds := x } }]

end PriceSignals
