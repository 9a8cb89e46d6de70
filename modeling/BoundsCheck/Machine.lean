import BoundsCheck.Checker
import BoundsCheck.RangeCache
import BoundsCheck.RangeTable
import BoundsCheck.Resolver
import BoundsCheck.Stats.Total
import BoundsCheck.Switch

/-!
# Machines

A machine runs the traces of several cores.  Each core has a checker with a cache of its own; the
caches share a second cache through a switch, and behind that stands the range table.

* `Machine.new` — the machine a configuration asks for.
* `Machine.push` — gives a core a trace to run.
* `Machine.cycle` — one cycle, all components in a fixed order: the table, the shared cache, the
  caches of the cores, the switch, the checkers.
* `Machine.run` — cycles until nothing is left to do.
-/

set_option autoImplicit false

namespace BoundsCheck

/-! ## Cores -/

/-- A core: its checker, its cache and its traces. -/
structure Core where
  checker : Checker
  l1 : RangeCache
  /-- Traces the checker has not been given yet. -/
  queue : List Trace := []
  /-- Traces the checker has let go, oldest first. -/
  completed : List Trace := []

namespace Core

/-- Something is left to do for the core. -/
def busy (c : Core) : Bool :=
  !c.queue.isEmpty || c.checker.busy || c.checker.output.hasPending || c.l1.busy

/-- One cycle of the cache of a core. -/
def cycleCache (now : Nat) (lower : Lookup.Link) (c : Core) : Core × Lookup.Link :=
  let (l1, lower) := c.l1.cycle now lower
  ({ c with l1 }, lower)

/-- One cycle of the checker of a core. -/
def cycleChecker (now : Nat) (c : Core) : Outcome SlotTable.Error Core :=
  (c.checker.cycle now c.l1.port).map fun (checker, port) =>
    { c with checker := checker, l1.port := port }

/-- The traces that the checker lets go in this cycle. -/
def leaving (now : Nat) (c : Core) : List Trace :=
  (c.checker.output.drain now).1.map (·.item)

/-- Takes in all traces that the checker lets go in this cycle. -/
def collect (now : Nat) (c : Core) : Core :=
  { c with
    checker.output := (c.checker.output.drain now).2
    completed := c.completed ++ c.leaving now }

/-- The trace that the checker is given in this cycle. -/
def entering? (c : Core) : Option Trace := if c.checker.hasRoom then c.queue.head? else none

/-- Gives the checker the next trace, if it has room for one. -/
def feed (now : Nat) (c : Core) : Core :=
  match c.entering? with
  | none => c
  | some trace =>
    { c with
      checker.input := c.checker.input.send trace 1 now
      queue := c.queue.tail }

/-- Takes traces from the checker and gives it the next one. -/
def exchange (now : Nat) (c : Core) : Core := (c.collect now).feed now

/-- The core with no trace anywhere and nothing counted. -/
def reset (c : Core) : Core :=
  { checker := c.checker.reset, l1 := c.l1.reset }

/-- One cycle of the caches of all cores, each above an input of the switch. -/
def cycleCaches (now : Nat) : List Core → List Lookup.Link → List Core × List Lookup.Link
  | core :: cores, lower :: lowers =>
    let (core, lower) := core.cycleCache now lower
    let (cores, lowers) := cycleCaches now cores lowers
    (core :: cores, lower :: lowers)
  | cores, lowers => (cores, lowers)

/-- One cycle of the checkers of all cores, up to the first one that is cut short. -/
def cycleCheckers (now : Nat) : List Core → Outcome SlotTable.Error (List Core)
  | [] => .ok []
  | core :: cores =>
    let first := core.cycleChecker now
    match first.error? with
    | some e => .fail (first.state :: cores) e
    | none => (cycleCheckers now cores).map (first.state :: ·)

end Core

/-! ## Machines -/

/-- Several cores before a shared cache and the range table. -/
structure Machine where
  config : Config
  cores : List Core
  switch : Switch
  l2 : RangeCache
  table : RangeTable
  /-- The number of the next cycle. -/
  clock : Nat := 0
  stats : Stats.Run := {}

namespace Machine

/-- Why something could not be done. -/
inductive Error
  | config (error : Config.Error)
  | slot (error : SlotTable.Error)
  | switch (error : Switch.Error)
  /-- There is no such core. -/
  | invalidCore (core cores : Nat)
  /-- The machine is still busy, but may not go on. -/
  | deadlock (cycle : Nat)
deriving DecidableEq, Repr

/-- The text an error is reported with. -/
def Error.message : Error → String
  | .config error => error.message
  | .slot error => error.message
  | .switch error => error.message
  | .invalidCore core cores =>
    "trace for core " ++ toString core ++ " but only " ++ toString cores ++ " cores are simulated"
  | .deadlock cycle => "simulation still busy after " ++ toString cycle ++ " cycles"

/-- Why a machine could not be built. -/
inductive BuildError
  | invalid (error : Config.Error)
  | fault (fault : Fault)
deriving DecidableEq, Repr

/-- A defect of the configuration as a reason not to build. -/
def checked {α : Type} (e : Except Config.Error α) : Except BuildError α := e.mapError .invalid

/-- A fault as a reason not to build. -/
def faultless {α : Type} (e : Except Fault α) : Except BuildError α := e.mapError .fault

/-- The core with the given number. -/
def newCore (c : Config) (resolver : Resolver) (id : Nat) : Except Fault Core := do
  let l1 ← RangeCache.new ("l1_rcache[" ++ toString id ++ "]") (UInt64.ofNat id) c.l1
  return { checker := .new (UInt64.ofNat id) c.checker resolver.resolve, l1 }

/-- The machine a configuration asks for. -/
def new (c : Config) : Except BuildError Machine := do
  checked c.validate
  let resolver ← faultless (Resolver.ofConfig c)
  let cores ← faultless ((List.range c.cores.toNat).mapM (newCore c resolver))
  let switch ← checked (Switch.new c.cores.toNat c.switch)
  let l2 ← faultless (RangeCache.new "l2_rcache" 0 c.l2)
  let table ← checked (RangeTable.ofConfig c.table)
  return { config := c, cores, switch, l2, table }

/-- Something is left to do. -/
def busy (m : Machine) : Bool :=
  m.cores.any (·.busy) || m.switch.busy || m.l2.busy || m.table.busy

/-- Gives a core a trace to run. -/
def push (trace : Trace) (m : Machine) : Outcome Error Machine :=
  match m.cores[trace.coreId.toNat]? with
  | none => .fail m (.invalidCore trace.coreId.toNat m.cores.length)
  | some core =>
    .ok { m with cores := m.cores.set trace.coreId.toNat { core with queue := core.queue ++ [trace] } }

/-! ## The parts of a cycle -/

/-- The table answers. -/
def cycleTable (m : Machine) : Machine := { m with table := m.table.cycle m.clock }

/-- The shared cache works above the table. -/
def cycleL2 (m : Machine) : Machine :=
  let (l2, port) := m.l2.cycle m.clock m.table.port
  { m with l2 := l2, table.port := port }

/-- The caches of the cores work above the switch. -/
def cycleL1s (m : Machine) : Machine :=
  let (cores, inputs) := Core.cycleCaches m.clock m.cores m.switch.inputs
  { m with cores := cores, switch.inputs := inputs }

/-- The switch works above the shared cache. -/
def cycleSwitch (m : Machine) : Outcome Error Machine :=
  ((m.switch.cycle m.clock m.l2.port).map fun (switch, port) =>
    { m with switch := switch, l2.port := port }).mapError .switch

/-- The checkers work above the caches of their cores. -/
def cycleCheckers (m : Machine) : Outcome Error Machine :=
  ((Core.cycleCheckers m.clock m.cores).map fun cores => { m with cores }).mapError .slot

/-- Traces are taken from the checkers and given to them. -/
def exchange (m : Machine) : Machine :=
  { m with
    cores := m.cores.map (·.exchange m.clock)
    stats.tracesOut := m.stats.tracesOut + (m.cores.flatMap (·.leaving m.clock)).length
    stats.tracesIn :=
      m.stats.tracesIn + m.cores.countP fun core => (core.collect m.clock).entering?.isSome }

/-- The cycle is over. -/
def tick (m : Machine) : Machine :=
  { m with clock := m.clock + 1, stats.cycles := m.clock + 1 }

/-- One cycle of all components.  A cycle that is cut short does not count. -/
def cycle (m : Machine) : Outcome Error Machine :=
  ((m.cycleTable.cycleL2.cycleL1s.cycleSwitch).andThen cycleCheckers).andThen
    fun m => .ok m.exchange.tick

/-! ## Runs -/

/-- At most `fuel` cycles, until nothing is left to do. -/
def runFor (fuel : Nat) (m : Machine) : Outcome Error Machine :=
  if m.busy then
    match fuel with
    | 0 => .fail m (.deadlock m.clock)
    | fuel + 1 => m.cycle.andThen (runFor fuel)
  else .ok m

/-- Cycles until nothing is left to do, but none with the number `limit` or a higher one. -/
def run (limit : Nat) (m : Machine) : Outcome Error Machine := m.runFor (limit - m.clock)

/-! ## Results -/

/-- The verdicts of all cores, core by core. -/
def verdicts (m : Machine) : List (UInt64 × Verdict) :=
  m.cores.flatMap fun core => core.checker.verdicts.map (core.checker.id, ·)

/-- The machine with all verdicts handed over. -/
def dropVerdicts (m : Machine) : Machine :=
  { m with cores := m.cores.map fun core => { core with checker := core.checker.dropVerdicts } }

/-- The traces a core has completed.  A core that does not exist has completed none. -/
def completed (m : Machine) (core : Nat) : List Trace :=
  match m.cores[core]? with
  | none => []
  | some core => core.completed

/-- The traces all cores have completed, core by core. -/
def allCompleted (m : Machine) : List (List Trace) := m.cores.map (·.completed)

/-- The machine with all completed traces handed over. -/
def dropCompleted (m : Machine) : Machine :=
  { m with cores := m.cores.map fun core => { core with completed := [] } }

/-- What all components have counted. -/
def report (m : Machine) : Stats where
  run := m.stats
  checkers := .ofList (m.cores.map fun core => (core.checker.id, core.checker.stats))
  l1 := .ofList (m.cores.map fun core => (core.l1.id, core.l1.stats))
  l2 := m.l2.stats
  table := m.table.stats
  switch := m.switch.stats

/-- The machine as it was built. -/
def reset (m : Machine) : Machine :=
  { m with
    cores := m.cores.map (·.reset)
    switch := m.switch.reset
    l2 := m.l2.reset
    table := m.table.reset
    clock := 0
    stats := {} }

end Machine

end BoundsCheck
