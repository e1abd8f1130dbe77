/-
Module: PriceSignals.Annotation
Purpose: Bars with their indicators, and the composer that computes them for a history.
Main exports:
  Annotated, Composer, Composer.make, Composer.standard, Composer.annotate
-/
import PriceSignals.Bar
import PriceSignals.Indicator.Bollinger
import PriceSignals.Indicator.Macd
import PriceSignals.Indicator.Rsi
import PriceSignals.Settings

namespace PriceSignals

/-- A bar with what has been derived for it. An indicator is absent until it has seen enough
bars. -/
structure Annotated where
  bar : Bar
  date : Option Time.Instant
  sma : Option Float
  emaFast : Option Float
  emaSlow : Option Float
  rsi : Option Float
  bollinger : Option Indicator.Bands
  macd : Option Indicator.Convergence

/-- The indicators that are computed for a history. -/
structure Composer where
  sma : Indicator.Sma
  rsi : Indicator.Rsi
  bollinger : Indicator.Bollinger
  emaFast : Indicator.Ema
  emaSlow : Indicator.Ema
  macd : Indicator.Macd
  /-- How many bars go by before a bar has every indicator. -/
  warmup : Nat

namespace Composer

/-- The indicators for settings without fault. -/
def ofFaultless (s : IndicatorSettings) (h : s.fault? = none) : Composer :=
  have pos (name : PeriodName) : 0 < (s.period name).toNat := IndicatorSettings.period_pos h name
  { sma := ⟨s.smaPeriod.toNat, pos .sma⟩
    rsi := ⟨s.rsiPeriod.toNat, pos .rsi⟩
    bollinger :=
      ⟨s.bollingerPeriod.toNat, s.bollingerMultiplier, pos .bollinger,
        IndicatorSettings.multiplier_ok h⟩
    emaFast := ⟨s.macdFast.toNat, pos .macdFast⟩
    emaSlow := ⟨s.macdSlow.toNat, pos .macdSlow⟩
    macd :=
      ⟨s.macdFast.toNat, s.macdSlow.toNat, s.macdSignal.toNat, pos .macdFast, pos .macdSlow,
        pos .macdSignal⟩
    warmup := s.warmup }

/-- The indicators for some settings, or what is wrong with the settings. -/
def make (s : IndicatorSettings) : Except SettingsFault Composer :=
  match h : s.fault? with
  | some fault => .error fault
  | none => .ok (ofFaultless s h)

/-- The indicators for the default settings. -/
def standard : Composer := ofFaultless {} IndicatorSettings.fault?_default

/-- Annotates each bar of a history, in the order given. The bands share the simple average where
the periods agree, and the two exponential averages are shown and feed the convergence. -/
def annotate (c : Composer) (bars : List Bar) : List Annotated :=
  let closes := bars.map (·.close)
  let averages := c.sma.values closes
  let bands :=
    if c.bollinger.period = c.sma.period then c.bollinger.valuesFrom closes averages
    else c.bollinger.values closes
  let fast := c.emaFast.series closes
  let slow := c.emaSlow.series closes
  let sma := averages.toArray
  let emaFast := fast.toArray
  let emaSlow := slow.toArray
  let rsi := (c.rsi.values closes).toArray
  let bollinger := bands.toArray
  let macd := (c.macd.valuesFrom fast slow).toArray
  bars.mapIdx fun i bar =>
    { bar
      date := bar.instant?
      sma := sma[i]?.join
      emaFast := emaFast[i]?
      emaSlow := emaSlow[i]?
      rsi := rsi[i]?.join
      bollinger := bollinger[i]?.join
      macd := macd[i]?.join }

/-- Every bar is annotated, and no other. -/
theorem length_annotate (c : Composer) (bars : List Bar) :
    (c.annotate bars).length = bars.length := by
  simp [annotate]

end Composer

end PriceSignals
