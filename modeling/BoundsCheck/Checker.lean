import BoundsCheck.Config.Basic
import BoundsCheck.Lookup
import BoundsCheck.Outcome
import BoundsCheck.SlotTable
import BoundsCheck.Stats.Basic
import BoundsCheck.Trace

/-!
# Checkers

A checker takes in the traces of one core.  For each trace it finds the buffer of its address, asks
a cache for the range entry of that buffer, judges the access by the answer and lets the trace go.

* `Checker.complete` — an answer arrives.
* `Checker.issue` — the next trace is looked up.
* `Checker.cycle` — one cycle: first an answer, then a trace.
-/

set_option autoImplicit false

namespace BoundsCheck

/-- A trace that waits for the answers to some lookups. -/
structure PendingTrace where
  trace : Trace
  remaining : Nat
deriving DecidableEq, Repr

/-- The check of the traces of one core. -/
structure Checker where
  id : UInt64
  config : CheckerConfig
  /-- The buffer an address belongs to. -/
  resolve : Address → Option BufferId
  input : Port Trace := {}
  output : Port Trace := {}
  slots : SlotTable PendingTrace
  /-- The verdicts so far, oldest first. -/
  verdicts : List Verdict := []
  stats : Stats.Checker := {}

namespace Checker

/-- A checker with nothing under way. -/
def new (id : UInt64) (config : CheckerConfig) (resolve : Address → Option BufferId) :
    Checker where
  id := id
  config := config
  resolve := resolve
  slots := .ofCapacity config.queueSize.toNat

/-- How many traces wait for an answer. -/
def inFlight (c : Checker) : Nat := c.slots.used

/-- How many traces can wait for an answer. -/
def capacity (c : Checker) : Nat := c.slots.capacity

/-- Some trace has still to be looked up or waits for an answer. -/
def busy (c : Checker) : Bool := c.input.hasPending || !c.slots.isEmpty

/-- There is room for one more trace. -/
def hasRoom (c : Checker) : Bool := c.inFlight + c.input.length < c.capacity

/-- The checker with all verdicts handed over. -/
def dropVerdicts (c : Checker) : Checker := { c with verdicts := [] }

/-! ## Answers -/

/-- The counters after a verdict. -/
def countVerdict (v : Verdict) (s : Stats.Checker) : Stats.Checker :=
  if !v.tracked then { s with untracked := s.untracked + 1 }
  else if v.valid then { s with valid := s.valid + 1 }
  else
    match v.reason with
    | none => s
    | some reason => s.addViolation reason

/-- Notes a verdict down. -/
def record (v : Verdict) (c : Checker) : Checker :=
  { c with verdicts := c.verdicts ++ [v], stats := countVerdict v c.stats }

/-- The verdict that a response brings for the trace that waited for it. -/
def verdictOf (now : Nat) (rsp : Lookup.Response) (trace : Trace) : Verdict :=
  Verdict.judge rsp.addr rsp.bufferId trace.isStore rsp.entry now rsp.uuid

/-- Lets a trace go. -/
def emit (now : Nat) (trace : Trace) (c : Checker) : Checker :=
  { c with
    output := c.output.send trace 1 now
    stats.emitted := c.stats.emitted + 1 }

/-- Gives up a slot and lets its trace go. -/
def finish (now : Nat) (tag : Tag) (c : Checker) : Outcome SlotTable.Error Checker :=
  match c.slots.release tag with
  | .error e => .fail c e
  | .ok (pending, slots) => .ok ({ c with slots }.emit now pending.trace)

/-- Counts a response. -/
def countResponse (c : Checker) : Checker :=
  { c with stats.responses := c.stats.responses + 1 }

/-- A response arrives.  The access of the trace that waited for it is judged, and the trace goes
once it waits for nothing else. -/
def complete (now : Nat) (rsp : Lookup.Response) (c : Checker) : Outcome SlotTable.Error Checker :=
  let c := c.countResponse
  match c.slots.modify rsp.tag fun pending => { pending with remaining := pending.remaining - 1 } with
  | .error e => .fail c e
  | .ok (pending, slots) =>
    let c := { c with slots }.record (verdictOf now rsp pending.trace)
    if pending.remaining = 0 then c.finish now rsp.tag else .ok c

/-! ## Traces -/

/-- The first trace has nothing to check and stays where it is. -/
def stall (c : Checker) : Checker :=
  { c with stats.emptyTraceStalls := c.stats.emptyTraceStalls + 1 }

/-- The trace belongs to no buffer. -/
def unresolved (now : Nat) (trace : Trace) (c : Checker) : Checker :=
  let c := { c with
    stats.traces := c.stats.traces + 1
    stats.unresolved := c.stats.unresolved + 1 }
  match c.config.unresolved with
  | .drop => c
  | .forward => c.emit now trace

/-- The question that is asked about an access. -/
def requestFor (trace : Trace) (addr : Address) (id : BufferId) (tag : Tag) : Lookup.Request :=
  ⟨addr, id, tag, trace.uuid⟩

/-- Asks for the range entry of the buffer that the trace belongs to. -/
def lookUp (now : Nat) (trace : Trace) (addr : Address) (id : BufferId) (rest : Port Trace)
    (l1 : Lookup.Link) (c : Checker) : Outcome SlotTable.Error (Checker × Lookup.Link) :=
  match c.slots.allocate ⟨trace, 1⟩ with
  | .error e => .fail (c, l1) e
  | .ok (tag, slots) =>
    .ok ({ c with
        slots := slots
        input := rest
        stats.traces := c.stats.traces + 1
        stats.lookups := c.stats.lookups + 1 },
      l1.request (requestFor trace addr id tag) 1 now)

/-- The next trace is taken in, if one is visible. -/
def issue (now : Nat) (l1 : Lookup.Link) (c : Checker) :
    Outcome SlotTable.Error (Checker × Lookup.Link) :=
  match c.input.pop? now with
  | none => .ok (c, l1)
  | some (packet, rest) =>
    match packet.item.firstAccess? with
    | none => .ok (c.stall, l1)
    | some access =>
      match c.resolve access.addr with
      | none => .ok ({ c with input := rest }.unresolved now packet.item, l1)
      | some id => c.lookUp now packet.item access.addr id rest l1

/-! ## Cycles -/

/-- Takes in an answer, if one is visible. -/
def takeResponse (now : Nat) (l1 : Lookup.Link) (c : Checker) :
    Outcome SlotTable.Error (Checker × Lookup.Link) :=
  match l1.responses.pop? now with
  | none => .ok (c, l1)
  | some (packet, rest) =>
    (c.complete now packet.item).map fun c => (c, { l1 with responses := rest })

/-- One cycle of a checker in front of a cache. -/
def cycle (now : Nat) (l1 : Lookup.Link) (c : Checker) :
    Outcome SlotTable.Error (Checker × Lookup.Link) :=
  (c.takeResponse now l1).andThen fun (c, l1) => c.issue now l1

/-- The checker with nothing under way, nothing noted and nothing counted. -/
def reset (c : Checker) : Checker :=
  { c with input := {}, output := {}, slots := c.slots.clear, verdicts := [], stats := {} }

end Checker

end BoundsCheck
