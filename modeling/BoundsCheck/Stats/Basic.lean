import BoundsCheck.Verdict

/-!
# Counters

What each component counts, and how the counters of several components are put together.

* `Stats.Checker`, `Stats.Cache`, `Stats.Table`, `Stats.Switch`, `Stats.Run` — one record for each
  kind of component.
* `add` of each record — the counters of two components together.
-/

set_option autoImplicit false

namespace BoundsCheck.Stats

/-! ## Violations by kind -/

/-- How often each kind of violation occurred.  A kind that was never spoken of has no count. -/
structure Violations where
  outOfBounds : Option Nat := none
  writeToReadOnly : Option Nat := none
deriving DecidableEq, Repr

namespace Violations

/-- Every kind occurred zero times. -/
def zero : Violations := ⟨some 0, some 0⟩

/-- The count of a kind. -/
def get? (v : Violations) : Violation → Option Nat
  | .outOfBounds => v.outOfBounds
  | .writeToReadOnly => v.writeToReadOnly

/-- All violations together. -/
def total (v : Violations) : Nat := v.outOfBounds.getD 0 + v.writeToReadOnly.getD 0

/-- Adds to the count of a kind. -/
def bump (v : Violations) (kind : Violation) (n : Nat) : Violations :=
  match kind with
  | .outOfBounds => { v with outOfBounds := some (v.outOfBounds.getD 0 + n) }
  | .writeToReadOnly => { v with writeToReadOnly := some (v.writeToReadOnly.getD 0 + n) }

/-- Adds the count of a kind, if there is one. -/
def bump? (v : Violations) (kind : Violation) (n : Option Nat) : Violations :=
  match n with
  | none => v
  | some n => v.bump kind n

/-- Adds all counts of `w`. -/
def add (v w : Violations) : Violations :=
  (v.bump? .outOfBounds w.outOfBounds).bump? .writeToReadOnly w.writeToReadOnly

end Violations

/-! ## Records -/

/-- The counters of a checker. -/
structure Checker where
  traces : Nat := 0
  lookups : Nat := 0
  responses : Nat := 0
  emitted : Nat := 0
  unresolved : Nat := 0
  emptyTraceStalls : Nat := 0
  valid : Nat := 0
  untracked : Nat := 0
  violations : Violations := .zero
deriving DecidableEq, Repr

namespace Checker

/-- The counters of two checkers together. -/
def add (a b : Checker) : Checker where
  traces := a.traces + b.traces
  lookups := a.lookups + b.lookups
  responses := a.responses + b.responses
  emitted := a.emitted + b.emitted
  unresolved := a.unresolved + b.unresolved
  emptyTraceStalls := a.emptyTraceStalls + b.emptyTraceStalls
  valid := a.valid + b.valid
  untracked := a.untracked + b.untracked
  violations := a.violations.add b.violations

/-- One more violation. -/
def addViolation (a : Checker) (kind : Violation) : Checker :=
  { a with violations := a.violations.bump kind 1 }

end Checker

/-- The counters of a cache. -/
structure Cache where
  reads : Nat := 0
  readMisses : Nat := 0
  mergedMisses : Nat := 0
  hits : Nat := 0
  evictions : Nat := 0
  pipelineStalls : Nat := 0
  memLatency : Nat := 0
deriving DecidableEq, Repr

namespace Cache

/-- The counters of two caches together. -/
def add (a b : Cache) : Cache where
  reads := a.reads + b.reads
  readMisses := a.readMisses + b.readMisses
  mergedMisses := a.mergedMisses + b.mergedMisses
  hits := a.hits + b.hits
  evictions := a.evictions + b.evictions
  pipelineStalls := a.pipelineStalls + b.pipelineStalls
  memLatency := a.memLatency + b.memLatency

/-- Reads that were not answered at once. -/
def misses (a : Cache) : Nat := a.readMisses + a.mergedMisses

end Cache

/-- The counters of the table. -/
structure Table where
  lookups : Nat := 0
  unknownBufferIds : Nat := 0
  queueingCycles : Nat := 0
deriving DecidableEq, Repr

/-- The counters of two tables together. -/
def Table.add (a b : Table) : Table where
  lookups := a.lookups + b.lookups
  unknownBufferIds := a.unknownBufferIds + b.unknownBufferIds
  queueingCycles := a.queueingCycles + b.queueingCycles

/-- The counters of a switch, one of each kind for every input. -/
structure Switch where
  grants : List Nat
  responses : List Nat
deriving DecidableEq, Repr

namespace Switch

/-- Counters for some inputs, all at zero. -/
def ofInputs (inputs : Nat) : Switch := ⟨List.replicate inputs 0, List.replicate inputs 0⟩

/-- Counts requests of an input that were passed on. -/
def grant (s : Switch) (input n : Nat) : Switch :=
  { s with grants := s.grants.modify input (· + n) }

/-- Counts responses that were delivered to an input. -/
def respond (s : Switch) (input n : Nat) : Switch :=
  { s with responses := s.responses.modify input (· + n) }

end Switch

/-- The counters of a run. -/
structure Run where
  cycles : Nat := 0
  tracesIn : Nat := 0
  tracesOut : Nat := 0
deriving DecidableEq, Repr

/-- The counters of two runs together.  The runs share their cycles. -/
def Run.add (a b : Run) : Run where
  cycles := max a.cycles b.cycles
  tracesIn := a.tracesIn + b.tracesIn
  tracesOut := a.tracesOut + b.tracesOut

end BoundsCheck.Stats
