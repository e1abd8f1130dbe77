/-
Module: PriceSignals.Main
Purpose: The program: reads the files that a command names, runs it, and prints what comes out.
Main exports:
  main
-/
import PriceSignals.Command
import PriceSignals.Log.Filter
import PriceSignals.Log.Line

namespace PriceSignals.Main

/-- The names of the sources of events. -/
def sourceName : Log.Source → String
  | .command => "price_signals"
  | .composer => "price_signals::composer"
  | .rules => "price_signals::rules"

/-- How the program is called. -/
def usage : String :=
  "Usage: price-signals annotate --input FILE [--config FILE] [--format json|csv] [--sort]\n"
    ++ "       price-signals signal --input FILE [--config FILE] [--sort]"

/-- What an error in opening a file says about the file. -/
def openedOfError : IO.Error → Opened
  | .noFileOrDirectory .. => .failed .notFound
  | .inappropriateType _ code _ => if code = 21 then .directory else .failed .notADirectory
  | _ => .failed .other

/-- Opens a file and reads it. -/
def openPath (path : List Char) : IO Opened := do
  try
    let bytes ← IO.FS.readBinFile (String.ofList path)
    return .content bytes.toList
  catch e => return openedOfError e

/-- Runs a command on the files that it names. -/
def perform (c : Command) : IO Outcome := do
  let paths := c.input :: c.config.toList
  let files ← paths.mapM fun path => do return (path, ← openPath path)
  return c.run fun path => (files.lookup path).getD (.failed .notFound)

/-- A setting from the environment. -/
def setting (name : String) : IO (Option (List Char)) :=
  return (← IO.getEnv name).map String.toList

/-- Prints the events that a filter lets through. -/
def showEvents (filter : Log.Filter) (events : List Log.Event) : IO Unit := do
  let format := Log.Format.ofSetting (← setting "PRICE_SIGNALS_LOG_FORMAT")
  for e in events do
    if filter.admits sourceName e then
      IO.eprintln (String.ofList (format.line sourceName e))

/-- Runs the command of the arguments. -/
def runFiltered (filter : Log.Filter) (args : List String) : IO UInt32 := do
  match Command.parse? (args.map String.toList) with
  | none =>
    IO.eprintln usage
    return UInt32.ofNat Command.usageExitCode
  | some c =>
    let outcome ← perform c
    showEvents filter outcome.events
    IO.print (String.ofList outcome.printed)
    match outcome.result with
    | .ok _ => pure ()
    | .error abort => IO.eprintln ("Error: " ++ abort.message)
    return UInt32.ofNat outcome.exitCode

/-- Runs the command of the arguments if the setting of the filter can be used. -/
def run (args : List String) : IO UInt32 := do
  match Log.Filter.ofSetting? (← setting "PRICE_SIGNALS_LOG") with
  | none =>
    IO.eprintln "the log filter has a name that begins or ends within a character"
    return UInt32.ofNat Command.splitExitCode
  | some filter => runFiltered filter args

end PriceSignals.Main

/-- The program. -/
def main (args : List String) : IO UInt32 := PriceSignals.Main.run args
