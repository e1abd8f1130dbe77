import PriceSignals.Main
import PriceSignals.Session
import PriceSignals.Settings.Json
import PriceSignals.Proofs.Causality
import PriceSignals.Proofs.Columns
import PriceSignals.Proofs.Replay
import PriceSignals.Proofs.Crossover
import PriceSignals.Proofs.KernelAgreement
import PriceSignals.Proofs.Warmup
import PriceSignals.Proofs.SortedHistory
import PriceSignals.Proofs.Justification
import PriceSignals.Proofs.ComposerSafety
import PriceSignals.Proofs.DecimalReadBack
import PriceSignals.Proofs.TableText
import PriceSignals.Proofs.TimeReadBack
import PriceSignals.Proofs.Utf8
import PriceSignals.Proofs.CalendarDates
import PriceSignals.Proofs.InstantReadBack
import PriceSignals.Proofs.Results
import PriceSignals.Proofs.TableReadBack
import PriceSignals.Proofs.TableContent
import PriceSignals.Proofs.RunStages
import PriceSignals.Proofs.JsonText
import PriceSignals.Proofs.JsonNumbers
import PriceSignals.Proofs.JsonRecords
import PriceSignals.Proofs.JsonValues
import PriceSignals.Proofs.JsonFixedPoint
import PriceSignals.Proofs.WilderRecurrence
import PriceSignals.Proofs.WindowDependence
import PriceSignals.Proofs.FloatValue
import PriceSignals.Proofs.Tally
import PriceSignals.Proofs.Decisiveness
import PriceSignals.Proofs.VoteSymmetry
import PriceSignals.Proofs.VoteMonotonicity
import PriceSignals.Proofs.SortContract
import PriceSignals.Proofs.OrderCheck
import PriceSignals.Proofs.FloatExact
import PriceSignals.Proofs.FractionalTime
import PriceSignals.Proofs.FloatOperations
import PriceSignals.Proofs.FloatMonotonicity
import PriceSignals.Proofs.IndexRange
import PriceSignals.Proofs.OneSidedMarkets
import PriceSignals.Proofs.TimeSpellings
import PriceSignals.Proofs.FloatLevels
import PriceSignals.Proofs.FloatRoots
import PriceSignals.Proofs.BandOrder
import PriceSignals.Proofs.RunPairs
import PriceSignals.Proofs.LooserSettings
import PriceSignals.Proofs.TrendMirror
import PriceSignals.Proofs.FlatMarket
import PriceSignals.Proofs.TableLayouts
import PriceSignals.Proofs.BarRows
import PriceSignals.Proofs.BarTables
import PriceSignals.Proofs.TomlNumbers
import PriceSignals.Proofs.TomlDocuments
import PriceSignals.Proofs.FloatNearest
import PriceSignals.Proofs.SettingsChecks
import PriceSignals.Proofs.SettingsOverrides
