/-
Module: PriceSignals.Command
Purpose: The command line, what a command does, and what is printed for an annotated history and
  for a verdict.
Main exports:
  SeriesFormat, SeriesFormat.render, Verdict.report, Command, Command.parse?, Abort,
  Abort.message, Outcome, Command.run
-/
import PriceSignals.Annotation.Csv
import PriceSignals.Annotation.Json
import PriceSignals.Bar.Order
import PriceSignals.History
import PriceSignals.Log
import PriceSignals.Settings.Toml
import PriceSignals.Verdict.Json

namespace PriceSignals

/-! ### Reports -/

/-- The formats of an annotated history. -/
inductive SeriesFormat where
  | json
  | csv
deriving Repr, DecidableEq

/-- The text of an annotated history. -/
def SeriesFormat.render (format : SeriesFormat) (series : List Annotated) : List Char :=
  match format with
  | .json => (Annotated.listToJson series).layOut 0
  | .csv => Annotated.listToCsv series

/-- The text of a verdict. -/
def Verdict.report (v : Verdict) : List Char := v.toJson.layOut 0

/-! ### Command lines -/

/-- What a command prints. -/
inductive Output where
  /-- The annotated history. -/
  | series (format : SeriesFormat)
  /-- The verdict on its end. -/
  | verdict
deriving Repr, DecidableEq

/-- A command. -/
structure Command where
  output : Output
  input : List Char
  config : Option (List Char)
  sort : Bool
deriving Repr, DecidableEq

namespace Command

/-- The options of a command line as far as they have been met. -/
structure Options where
  input : Option (List Char) := none
  config : Option (List Char) := none
  format : Option SeriesFormat := none
  sort : Bool := false

/-- The formats by their names. -/
def formatNamed? (name : List Char) : Option SeriesFormat :=
  if name = "json".toList then some .json
  else if name = "csv".toList then some .csv
  else none

/-- Takes note of an option with a value. No option may stand twice, and no value may be
empty. -/
def Options.withValue? (o : Options) (formats : Bool) (name value : List Char) : Option Options :=
  if value.isEmpty then none
  else if name = "--input".toList ∧ o.input.isNone then some { o with input := some value }
  else if name = "--config".toList ∧ o.config.isNone then some { o with config := some value }
  else if name = "--format".toList ∧ formats ∧ o.format.isNone then
    (formatNamed? value).map fun format => { o with format := some format }
  else none

/-- Whether an argument can be the value of the option before it: it must not look like an
option itself, but may be a lone dash. -/
def isValue (arg : List Char) : Bool :=
  match arg with
  | '-' :: _ :: _ => false
  | _ => true

/-- The options of arguments. `formats` tells whether there is a choice of formats. Nothing may
follow a lone `--`. -/
def Options.parse? (formats : Bool) : Options → List (List Char) → Option Options
  | o, [] => some o
  | o, arg :: rest =>
    if arg = "--".toList then if rest.isEmpty then some o else none
    else if arg = "--sort".toList then
      if o.sort then none else Options.parse? formats { o with sort := true } rest
    else
      let name := arg.takeWhile (· ≠ '=')
      match arg.dropWhile (· ≠ '=') with
      | _ :: value => do
        let o ← o.withValue? formats name value
        Options.parse? formats o rest
      | [] =>
        match rest with
        | value :: rest =>
          if isValue value then do
            let o ← o.withValue? formats name value
            Options.parse? formats o rest
          else none
        | [] => none

/-- The command of arguments. The input has to be given. -/
def parse? : List (List Char) → Option Command
  | [] => none
  | word :: rest =>
    if word = "annotate".toList then do
      let o ← Options.parse? true {} rest
      let input ← o.input
      return { output := .series (o.format.getD .json), input, config := o.config, sort := o.sort }
    else if word = "signal".toList then do
      let o ← Options.parse? false {} rest
      let input ← o.input
      return { output := .verdict, input, config := o.config, sort := o.sort }
    else none

end Command

/-! ### Runs -/

/-- Why the settings of a file cannot be used. -/
inductive ConfigFault where
  | file (fault : FileFault)
  | content (error : Settings.ReadError)

/-- The settings of a file. -/
def Settings.ofFile (file : Opened) : Except ConfigFault Settings := do
  let cs ← file.text.mapError .file
  (Settings.read cs).mapError .content

/-- Why a run ends without output. -/
inductive Abort where
  | config (path : List Char) (fault : ConfigFault)
  | indicators (fault : SettingsFault)
  | input (path : List Char) (fault : LoadFault)

/-- The first line that is said about an aborted run. -/
def Abort.message : Abort → String
  | config path _ => "invalid config: " ++ String.ofList path
  | indicators _ => "invalid indicator config"
  | input path fault => (fault.contexts (String.ofList path)).headD ""

/-- What a run leaves behind: its events, and what it prints or why it prints nothing. -/
structure Outcome where
  events : List Log.Event
  result : Except Abort (List Char)

/-- The code with which the program ends. -/
def Outcome.exitCode (o : Outcome) : Nat :=
  match o.result with
  | .ok _ => 0
  | .error _ => 1

/-- What the program prints. -/
def Outcome.printed (o : Outcome) : List Char :=
  match o.result with
  | .ok cs => cs
  | .error _ => []

namespace Command

open Log (Event)

/-- The code with which the program ends if it is not given a command. -/
def usageExitCode : Nat := 2

/-- The code with which the program ends if a name of its log filter is split. -/
def splitExitCode : Nat := 101

/-- The events of loading a history. -/
def loadEvents (c : Command) (warmup : Nat) (bars : List Bar) : List Event :=
  let loaded : Event :=
    { level := .info, source := .command, message := "loaded price history"
      details := [("path", .text (String.ofList c.input)), ("bars", .count bars.length)] }
  let unordered : Event :=
    { level := .warn, source := .command
      message := "bars are not in ascending time order; processing as given (use --sort)"
      details := [] }
  let short : Event :=
    { level := .warn, source := .command
      message := "history too short for full indicator warm-up; some fields will be absent"
      details := [("bars", .count bars.length), ("warmup", .count warmup)] }
  loaded
    :: ((if c.sort || Bar.inOrder bars then [] else [unordered])
      ++ (if bars.length ≤ warmup then [short] else []))

/-- The events of annotating a history. -/
def annotateEvents (warmup : Nat) (bars : List Bar) : List Event :=
  if bars.isEmpty then []
  else
    [{ level := .debug, source := .composer, message := "composing indicators"
       details := [("bars", .count bars.length), ("warmup", .count warmup)] }]

/-- The name of a direction in events. -/
def directionName : Direction → String
  | .buy => "Buy"
  | .sell => "Sell"

/-- The events of finding a verdict: one for each rule that fires, and one for the vote. There is
no vote on a history of less than two bars. -/
def verdictEvents (rules : List Rule) (series : List Annotated) (v : Verdict) : List Event :=
  match latestPair? series with
  | none => []
  | some (current, previous) =>
    let fired := firedOn rules current previous
    fired.map (fun (name, hit) =>
      { level := .debug, source := .rules, message := "rule fired"
        details :=
          [("rule", .text name), ("direction", .text (directionName hit.direction)),
            ("strength", .amount hit.strength)] })
    ++ [{ level := .debug, source := .rules, message := "aggregated signal"
          details :=
            [("signal_type", .text v.stance.word), ("strength", .count v.strength.toNat),
              ("fired", .count fired.length)] }]

/-- The event of a verdict. -/
def computedEvent (v : Verdict) : Event :=
  { level := .info, source := .command, message := "signal computed"
    details := [("signal_type", .text v.stance.word), ("strength", .count v.strength.toNat)] }

/-- What a command makes of the bars it has loaded. -/
def process (c : Command) (settings : Settings) (composer : Composer) (bars : List Bar) :
    List Event × List Char :=
  let ordered := if c.sort then Bar.sort bars else bars
  let series := composer.annotate ordered
  let before := loadEvents c composer.warmup bars ++ annotateEvents composer.warmup bars
  match c.output with
  | .series .json => (before, SeriesFormat.json.render series ++ ['\n'])
  | .series .csv => (before, SeriesFormat.csv.render series)
  | .verdict =>
    let rules := Rule.standard settings.thresholds
    let v := Verdict.of rules series
    (before ++ verdictEvents rules series v ++ [computedEvent v], v.report ++ ['\n'])

/-- The settings of a run: those of its file, if there is one. -/
def settings (openFile : List Char → Opened) (c : Command) : Except Abort Settings :=
  match c.config with
  | none => .ok {}
  | some path => (Settings.ofFile (openFile path)).mapError (.config path)

/-- Runs a command. The settings come first, then the history. -/
def run (openFile : List Char → Opened) (c : Command) : Outcome :=
  let attempt : Except Abort (List Event × List Char) := do
    let settings ← c.settings openFile
    let composer ← (Composer.make settings.indicators).mapError .indicators
    let bars ← (loadHistory c.input (openFile c.input)).mapError (.input c.input)
    return c.process settings composer bars
  match attempt with
  | .ok (events, printed) => { events, result := .ok printed }
  | .error abort => { events := [], result := .error abort }

end Command

end PriceSignals
