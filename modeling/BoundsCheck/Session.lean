import BoundsCheck.Codec.Config
import BoundsCheck.Codec.Report
import BoundsCheck.Codec.Trace
import BoundsCheck.Document.Json.Printer
import BoundsCheck.Document.Json.Reader
import BoundsCheck.Document.Yaml.Fit
import BoundsCheck.Journal.Machine

/-!
# Sessions

A session reads a configuration and some traces, runs the traces on the machine of the
configuration and reports what happened.  Without a configuration and traces of its own it runs a
built-in benchmark.

* `readConfig`, `readTraces` — the two inputs.
* `Session.run` — a whole session.
* `Session.Report` — what is reported.
-/

set_option autoImplicit false

namespace BoundsCheck

/-- The traces of the built-in benchmark. -/
def benchmarkTraces : List Trace :=
  [.load 1 0xFEFFFFC8 4, .load 2 0xFEFFFFBC 4, .store 3 0xFEFFFFC8 4, .load 4 0x8000A820 4,
    .store 5 0x8000A820 4, .load 6 0x8000BA5C 4, .store 7 0x8000BA5C 4, .load 8 0xFEFFFFC8 4]

namespace Session

/-! ## Inputs -/

/-- A file by its path, with the text in it unless it cannot be opened. -/
structure Source where
  path : String
  text : Option String
deriving DecidableEq, Repr

/-- What a file holds. -/
inductive Content
  | config
  | traces
deriving DecidableEq, Repr

/-- The name of what a file holds. -/
def Content.name : Content → String
  | .config => "config"
  | .traces => "traces"

/-- Why a session ended early. -/
inductive Error
  | cannotOpen (content : Content) (path : String)
  | cannotParse (content : Content) (path : String)
  | config (error : Config.Error)
  | machine (error : Machine.Error)
deriving DecidableEq, Repr

/-- The text an error is reported with. -/
def Error.message : Error → String
  | .cannotOpen content path => "failed to open " ++ content.name ++ " " ++ path
  | .cannotParse content path => "failed to parse " ++ content.name ++ " " ++ path
  | .config error => error.message
  | .machine error => error.message

/-- What a source holds, given a reader of its text. -/
def Source.read {α : Type} (content : Content) (parse : String → Option α) (source : Source) :
    Except Error α :=
  match source.text with
  | none => .error (.cannotOpen content source.path)
  | some text =>
    match parse text with
    | none => .error (.cannotParse content source.path)
    | some value => .ok value

/-- The configuration that is written in a text. -/
def parseConfig? (text : String) : Option Config := do
  Config.ofDocument? (← Yaml.read? Config.shape text)

/-- The traces that are written in a text. -/
def parseTraces? (text : String) : Option (List Trace) := do
  Document.items? Trace.ofDocument? (← Json.read? text)

/-- Reads a configuration that a machine can be built with, but for the entries of its table. -/
def readConfig (source : Source) : Except Error Config := do
  let config ← source.read .config parseConfig?
  config.validate.mapError .config
  return config

/-- Reads traces. -/
def readTraces (source : Source) : Except Error (List Trace) := source.read .traces parseTraces?

/-- Reads both inputs, the configuration first. -/
def readInputs (config traces : Option Source) : Except Error (Config × List Trace) := do
  let config ← match config with
    | none => .ok {}
    | some source => readConfig source
  let traces ← match traces with
    | none => .ok benchmarkTraces
    | some source => readTraces source
  return (config, traces)

/-! ## Reports -/

/-- What is reported after a run. -/
structure Report where
  cycles : Nat
  verdicts : List (UInt64 × Verdict)
  stats : Stats

/-- What a machine reports after a run. -/
def Report.ofMachine (m : Machine) : Report := ⟨m.clock, m.verdicts, m.report⟩

/-- Writes a report. -/
def Report.toDocument (r : Report) : Document :=
  .record [("cycles", .ofNat r.cycles),
    ("evaluations", .list (r.verdicts.map fun (core, verdict) =>
      .record (("core_id", .ofWord64 core) :: verdict.fields))),
    ("stats", r.stats.toDocument)]

/-- The lines that tell of the violations. -/
def Report.violationLines (r : Report) : List String :=
  (r.verdicts.filter (·.2.isViolation)).map fun (core, verdict) =>
    "VIOLATION core " ++ toString core ++ ": " ++ verdict.text

/-- The line that tells how long a run took. -/
def Report.cyclesLine (r : Report) : String := "simulated " ++ toString r.cycles ++ " cycles"

/-! ## Runs -/

/-- How a session ended. -/
inductive Ending
  | finished (report : Report)
  | failed (error : Error)
  | faulted (fault : Fault)

/-- The traces that were left out because they have no access, and how the session ended. -/
structure Result where
  skipped : List Trace
  ending : Ending

/-- Gives the cores their traces, except those without an access, up to the first that has no
core. -/
def load (m : Machine) : List Trace → List Trace × Outcome Machine.Error Machine
  | [] => ([], .ok m)
  | trace :: rest =>
    if trace.firstAccess?.isNone then
      let (skipped, outcome) := load m rest
      (trace :: skipped, outcome)
    else
      let pushed := m.push trace
      match pushed.error? with
      | some _ => ([], pushed)
      | none => load pushed.state rest

/-- The end of a run. -/
def Ending.ofOutcome (o : Outcome Machine.Error Machine) : Ending :=
  match o.error? with
  | some error => .failed (.machine error)
  | none => .finished (.ofMachine o.state)

/-- Runs traces on a machine. -/
def runOn (m : Machine) (traces : List Trace) (limit : Nat) : Result :=
  let (skipped, loaded) := load m traces
  ⟨skipped, .ofOutcome (loaded.andThen (·.run limit))⟩

/-- A session that runs at most up to a cycle. -/
def run (config traces : Option Source) (limit : Nat) : Result :=
  match readInputs config traces with
  | .error e => ⟨[], .failed e⟩
  | .ok (config, traces) =>
    match Machine.new config with
    | .error (.invalid e) => ⟨[], .failed (.config e)⟩
    | .error (.fault f) => ⟨[], .faulted f⟩
    | .ok m => runOn m traces limit

/-- What is reported about a session on the way. -/
def events (config traces : Option Source) (limit : Nat) : List Journal.Event :=
  match readInputs config traces with
  | .error _ => []
  | .ok (config, traces) =>
    match Machine.new config with
    | .error _ => Resolver.events config
    | .ok m =>
      let (skipped, loaded) := load m traces
      Machine.newEvents config ++ skipped.map .skip
        ++ (if loaded.error?.isNone then loaded.state.runEvents limit else [])

end Session

end BoundsCheck
