/-
Module: PriceSignals.Settings.Json
Purpose: Settings in JSON. What is not given keeps its default.
Main exports:
  IndicatorSettings.ofJson, IndicatorSettings.toJson, Thresholds.ofJson, Thresholds.toJson,
  Settings.ofJson, Settings.toJson
-/
import PriceSignals.Json.Decode
import PriceSignals.Json.Printer
import PriceSignals.Settings.Slots

namespace PriceSignals

open Json (Tree Members)

/-- A value as a machine word. -/
def wordOfJson (v : Tree) : Except Json.Error UInt64 :=
  (v.natural UInt64.size "usize").map UInt64.ofNat

/-- A machine word as a value. -/
def wordToJson (n : UInt64) : Tree := Tree.ofInt n.toNat

namespace IndicatorSettings

/-- The indicators' settings of a value. -/
def ofJson (v : Tree) : Except Json.Error IndicatorSettings :=
  v.record "struct IndicatorConfig" (slots wordOfJson Tree.float) {} fun _ s => .ok s

/-- The indicators' settings as an object. -/
def toJson (s : IndicatorSettings) : Tree :=
  .object (Members.ofList
    [("sma_period", wordToJson s.smaPeriod), ("rsi_period", wordToJson s.rsiPeriod),
      ("bollinger_period", wordToJson s.bollingerPeriod),
      ("bollinger_multiplier", Tree.ofFloat s.bollingerMultiplier),
      ("macd_fast", wordToJson s.macdFast), ("macd_slow", wordToJson s.macdSlow),
      ("macd_signal", wordToJson s.macdSignal)])

end IndicatorSettings

namespace Thresholds

/-- The thresholds of a value. -/
def ofJson (v : Tree) : Except Json.Error Thresholds :=
  v.record "struct SignalThresholds" (slots Tree.float) {} fun _ t => .ok t

/-- The thresholds as an object. -/
def toJson (t : Thresholds) : Tree :=
  .object (Members.ofList
    [("rsi_oversold", Tree.ofFloat t.oversold), ("rsi_overbought", Tree.ofFloat t.overbought)])

end Thresholds

namespace Settings

/-- The settings of a value. -/
def ofJson (v : Tree) : Except Json.Error Settings :=
  v.record "struct EngineConfig" (slots IndicatorSettings.ofJson Thresholds.ofJson) {}
    fun _ s => .ok s

/-- The settings as an object. -/
def toJson (s : Settings) : Tree :=
  .object (Members.ofList
    [("indicators", s.indicators.toJson), ("thresholds", s.thresholds.toJson)])

end Settings

end PriceSignals
