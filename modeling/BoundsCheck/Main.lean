import BoundsCheck.Options
import BoundsCheck.Session

/-!
# The command line

Reads the files that the options name, runs a session and prints its report.
-/

set_option autoImplicit false

namespace BoundsCheck.CommandLine

open Journal

/-- The events of a level are shown from this verbosity on. -/
def Level.verbosity : Level → Nat
  | .warn => 0
  | .info => 1
  | .debug => 2
  | .trace => 3

/-- The text that explains the options. -/
def usage : String :=
  "simulate bounds checking of GPU memory traces\n\n"
    ++ "Options:\n"
    ++ "  -c, --config <CONFIG>          \n"
    ++ "  -t, --traces <TRACES>          \n"
    ++ "      --max-cycles <MAX_CYCLES>  [default: 1000000]\n"
    ++ "  -o, --output <OUTPUT>          \n"
    ++ "  -v, --verbose...               \n"
    ++ "  -h, --help                     Print help\n"
    ++ "  -V, --version                  Print version"

/-- Opens a file. -/
def openSource (path : String) : IO Session.Source := do
  try
    return ⟨path, some (← IO.FS.readFile path)⟩
  catch _ =>
    return ⟨path, none⟩

/-- Prints the events that the verbosity asks for. -/
def printEvents (verbosity : Nat) (events : List Event) : IO Unit :=
  for event in events do
    if Level.verbosity event.level ≤ verbosity then
      IO.eprintln (event.level.name ++ " " ++ event.text)

/-- Prints a report. -/
def printReport (output : Option String) (report : Session.Report) : IO Unit := do
  for line in report.violationLines do
    IO.eprintln line
  let text := Json.renderPretty report.toDocument
  match output with
  | some path => IO.FS.writeFile path text
  | none => IO.println text
  IO.eprintln report.cyclesLine

/-- Runs the session that the options ask for; returns the exit code. -/
def runSession (options : Options) : IO UInt32 := do
  let config ← options.config.mapM openSource
  let traces ← options.traces.mapM openSource
  printEvents options.verbosity (Session.events config traces options.limit)
  match (Session.run config traces options.limit).ending with
  | .finished report =>
    printReport options.output report
    return 0
  | .failed error =>
    IO.eprintln ("Error: " ++ error.message)
    return 1
  | .faulted fault =>
    IO.eprintln fault.message
    return 101

end BoundsCheck.CommandLine

/-- Runs the program with its arguments. -/
def main (args : List String) : IO UInt32 := do
  match BoundsCheck.Options.parse args with
  | .ok options => BoundsCheck.CommandLine.runSession options
  | .error .help =>
    IO.println BoundsCheck.CommandLine.usage
    return 0
  | .error .version =>
    IO.println "0.1.0"
    return 0
  | .error .refused =>
    IO.eprintln "error: invalid arguments"
    return 2
