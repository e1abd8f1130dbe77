/-
Module: PriceSignals.Settings.Toml
Purpose: Settings in TOML. What is not given keeps its default, and the whole has to be without
  fault.
Main exports:
  IndicatorSettings.ofToml, Thresholds.ofToml, Settings.ofToml, Settings.ReadError, Settings.read
-/
import PriceSignals.Settings.Slots
import PriceSignals.Toml.Decode

namespace PriceSignals

open Toml (Value)

/-- A value as a machine word. Whole numbers of TOML are small enough. -/
def wordOfToml (v : Value) : Except Data.Fault UInt64 :=
  (v.readNatural "usize").map UInt64.ofNat

/-- The indicators' settings of a value. -/
def IndicatorSettings.ofToml (v : Value) : Except Data.Fault IndicatorSettings :=
  v.readRecord "struct IndicatorConfig" (slots wordOfToml Value.readFloat) {}

/-- The thresholds of a value. -/
def Thresholds.ofToml (v : Value) : Except Data.Fault Thresholds :=
  v.readRecord "struct SignalThresholds" (slots Value.readFloat) {}

namespace Settings

/-- The settings of a value. -/
def ofToml (v : Value) : Except Data.Fault Settings :=
  v.readRecord "struct EngineConfig" (slots IndicatorSettings.ofToml Thresholds.ofToml) {}

/-- Why a text does not give settings. -/
inductive ReadError where
  | text (error : Toml.Error)
  | settings (fault : SettingsFault)

/-- Settings that nothing is wrong with. -/
def checked (s : Settings) : Except SettingsFault Settings :=
  match s.fault? with
  | some fault => .error fault
  | none => .ok s

/-- The settings of a document. -/
def read (cs : List Char) : Except ReadError Settings := do
  let s ← (Toml.decode ofToml cs).mapError .text
  s.checked.mapError .settings

end Settings

end PriceSignals
