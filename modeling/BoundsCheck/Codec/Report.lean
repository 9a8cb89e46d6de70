import BoundsCheck.Document.Basic
import BoundsCheck.Stats.Total
import BoundsCheck.Verdict

/-!
# Verdicts and counters as documents

* `Verdict.toDocument`, `Stats.toDocument` — what a run reports.
* `Stats.Checker.ofDocument?` and its siblings — counters that were reported before.
* `Document.overlay` — a record of which some fields are given anew.
-/

set_option autoImplicit false

namespace BoundsCheck

open Document

/-! ## Verdicts -/

/-- The name of a violation. -/
def Violation.name : Violation → String
  | .outOfBounds => "OutOfBounds"
  | .writeToReadOnly => "WriteToReadOnly"

/-- The names of the violations. -/
def Violation.names : List (String × Violation) :=
  [("OutOfBounds", .outOfBounds), ("WriteToReadOnly", .writeToReadOnly)]

/-- The fields of a verdict. -/
def Verdict.fields (v : Verdict) : List (String × Document) :=
  [("cycle", ofNat v.cycle), ("uuid", ofWord64 v.uuid), ("addr", ofWord64 v.addr),
    ("buffer_id", ofWord16 v.bufferId), ("base_addr", ofWord64 v.base), ("size", ofWord64 v.size),
    ("is_store", .bool v.isStore), ("in_bounds", .bool v.inBounds),
    ("permitted", .bool v.permitted), ("valid", .bool v.valid), ("tracked", .bool v.tracked),
    ("reason", ofOption (fun reason => .text reason.name) v.reason)]

/-- Writes a verdict. -/
def Verdict.toDocument (v : Verdict) : Document := .record v.fields

/-! ## Counters -/

namespace Stats

/-- Writes how often each kind of violation occurred. -/
def Violations.toDocument (v : Violations) : Document :=
  .record ([Violation.outOfBounds, Violation.writeToReadOnly].filterMap fun kind =>
    (v.get? kind).map fun n => (kind.name, ofNat n))

/-- Writes the counters of a checker. -/
def Checker.toDocument (c : Checker) : Document :=
  .record [("traces", ofNat c.traces), ("lookups", ofNat c.lookups),
    ("responses", ofNat c.responses), ("emitted", ofNat c.emitted),
    ("unresolved", ofNat c.unresolved), ("empty_trace_stalls", ofNat c.emptyTraceStalls),
    ("valid", ofNat c.valid), ("untracked", ofNat c.untracked),
    ("violations", c.violations.toDocument)]

/-- Writes the counters of a cache. -/
def Cache.toDocument (c : Cache) : Document :=
  .record [("reads", ofNat c.reads), ("read_misses", ofNat c.readMisses),
    ("merged_misses", ofNat c.mergedMisses), ("hits", ofNat c.hits),
    ("evictions", ofNat c.evictions), ("pipeline_stalls", ofNat c.pipelineStalls),
    ("mem_latency", ofNat c.memLatency)]

/-- Writes the counters of the table. -/
def Table.toDocument (t : Table) : Document :=
  .record [("lookups", ofNat t.lookups), ("unknown_buffer_ids", ofNat t.unknownBufferIds),
    ("queueing_cycles", ofNat t.queueingCycles)]

/-- Writes the counters of a switch. -/
def Switch.toDocument (s : Switch) : Document :=
  .record [("grants", .list (s.grants.map ofNat)), ("responses", .list (s.responses.map ofNat))]

/-- Writes the counters of a run. -/
def Run.toDocument (r : Run) : Document :=
  .record [("cycles", ofNat r.cycles), ("traces_in", ofNat r.tracesIn),
    ("traces_out", ofNat r.tracesOut)]

/-- Writes records by core. -/
def PerCore.toDocument {α : Type} (write : α → Document) (m : PerCore α) : Document :=
  .record (m.entries.map fun entry => (toString entry.1, write entry.2))

/-- Reads a counter. -/
def counter? : Reader Nat := natBelow? UInt64.size

/-- Notes how often a kind of violation occurred. -/
def Violations.insertField (v : Violations) (field : String × Document) : Option Violations := do
  let kind ← Violation.names.lookup field.1
  let n ← counter? field.2
  match kind with
  | .outOfBounds => return { v with outOfBounds := some n }
  | .writeToReadOnly => return { v with writeToReadOnly := some n }

/-- Reads how often each kind of violation occurred. -/
def Violations.ofDocument? : Reader Violations
  | .record fields => fields.foldlM Violations.insertField {}
  | _ => none

/-- Reads the counters of a checker. -/
def Checker.ofDocument? (d : Document) : Option Checker := do
  let names := ["traces", "lookups", "responses", "emitted", "unresolved", "empty_trace_stalls",
    "valid", "untracked", "violations"]
  match ← d.fields? names with
  | [traces, lookups, responses, emitted, unresolved, stalls, valid, untracked, violations] =>
    return {
      traces := ← required? counter? traces
      lookups := ← required? counter? lookups
      responses := ← required? counter? responses
      emitted := ← required? counter? emitted
      unresolved := ← required? counter? unresolved
      emptyTraceStalls := ← required? counter? stalls
      valid := ← required? counter? valid
      untracked := ← required? counter? untracked
      violations := ← required? Violations.ofDocument? violations }
  | _ => none

/-- Reads the counters of a cache. -/
def Cache.ofDocument? (d : Document) : Option Cache := do
  let names := ["reads", "read_misses", "merged_misses", "hits", "evictions", "pipeline_stalls",
    "mem_latency"]
  match ← d.fields? names with
  | [reads, readMisses, mergedMisses, hits, evictions, pipelineStalls, memLatency] =>
    return {
      reads := ← required? counter? reads
      readMisses := ← required? counter? readMisses
      mergedMisses := ← required? counter? mergedMisses
      hits := ← required? counter? hits
      evictions := ← required? counter? evictions
      pipelineStalls := ← required? counter? pipelineStalls
      memLatency := ← required? counter? memLatency }
  | _ => none

/-- Reads the counters of the table. -/
def Table.ofDocument? (d : Document) : Option Table := do
  match ← d.fields? ["lookups", "unknown_buffer_ids", "queueing_cycles"] with
  | [lookups, unknownBufferIds, queueingCycles] =>
    return {
      lookups := ← required? counter? lookups
      unknownBufferIds := ← required? counter? unknownBufferIds
      queueingCycles := ← required? counter? queueingCycles }
  | _ => none

/-- Reads the counters of a run. -/
def Run.ofDocument? (d : Document) : Option Run := do
  match ← d.fields? ["cycles", "traces_in", "traces_out"] with
  | [cycles, tracesIn, tracesOut] =>
    return {
      cycles := ← required? counter? cycles
      tracesIn := ← required? counter? tracesIn
      tracesOut := ← required? counter? tracesOut }
  | _ => none

end Stats

/-- Writes the counters of all components. -/
def Stats.toDocument (s : Stats) : Document :=
  .record [("sim", s.run.toDocument), ("bcu", s.checkers.toDocument Stats.Checker.toDocument),
    ("l1_rcache", s.l1.toDocument Stats.Cache.toDocument), ("l2_rcache", s.l2.toDocument),
    ("rbt_mem", s.table.toDocument), ("switch", s.switch.toDocument)]

/-! ## Records given in part -/

/-- A record with the fields of another one in place of its own. -/
def Document.overlay : Document → Document → Document
  | .record fields, .record given =>
    .record (fields.filter (fun field => !given.any (·.1 == field.1)) ++ given)
  | d, _ => d

end BoundsCheck
