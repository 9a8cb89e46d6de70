import BoundsCheck.Stats.Basic
import BoundsCheck.Number.Binary64

/-!
# Totals

The counters of all components of a machine, and the totals over its cores.

* `Stats.PerCore` — one record for each core.
* `Stats` — the records of all components.
* `Stats.Checker.text`, `Stats.Cache.hitRateBits` — the forms in which counters are reported.
-/

set_option autoImplicit false

namespace BoundsCheck

namespace Stats

/-! ## Records by core -/

/-- A record for each of some cores.  No core occurs twice. -/
structure PerCore (α : Type) where
  entries : List (UInt64 × α) := []
deriving DecidableEq, Repr

namespace PerCore

variable {α : Type}

/-- The record of a core. -/
def get? (m : PerCore α) (core : UInt64) : Option α :=
  (m.entries.find? (·.1 == core)).map (·.2)

/-- Sets the record of a core. -/
def insert (m : PerCore α) (core : UInt64) (value : α) : PerCore α :=
  if m.entries.any (·.1 == core) then
    ⟨m.entries.map fun entry => if entry.1 == core then (core, value) else entry⟩
  else ⟨m.entries ++ [(core, value)]⟩

/-- The records of a list of pairs.  The last record of a core counts. -/
def ofList (entries : List (UInt64 × α)) : PerCore α :=
  entries.foldl (fun m entry => m.insert entry.1 entry.2) {}

/-- All records, in no particular order. -/
def values (m : PerCore α) : List α := m.entries.map (·.2)

/-- How many cores have a record. -/
def size (m : PerCore α) : Nat := m.entries.length

end PerCore

/-- The counters of several caches together. -/
def PerCore.totalCache (m : PerCore Cache) : Cache := m.values.foldl Cache.add {}

/-- The counters of several checkers together. -/
def PerCore.totalChecker (m : PerCore Checker) : Checker := m.values.foldl Checker.add {}

end Stats

/-- The counters of all components of a machine. -/
structure Stats where
  run : Stats.Run := {}
  checkers : Stats.PerCore Stats.Checker := {}
  l1 : Stats.PerCore Stats.Cache := {}
  l2 : Stats.Cache := {}
  table : Stats.Table := {}
  switch : Stats.Switch
deriving DecidableEq, Repr

namespace Stats

/-- All counters of a machine with some cores at zero. -/
def ofCores (cores : Nat) : Stats where
  checkers := .ofList ((List.range cores).map fun core => (UInt64.ofNat core, {}))
  l1 := .ofList ((List.range cores).map fun core => (UInt64.ofNat core, {}))
  switch := .ofInputs cores

/-! ## Reports -/

/-- The share of the reads that were hits, as the bit pattern of a double.  Without a read there is
no such share. -/
def Cache.hitRateBits (c : Cache) : Option String :=
  if c.reads = 0 then none else some (Number.bitsText (Number.quotientBits c.hits c.reads))

/-- The counters by name.  A kind of violation is named only if it occurred. -/
def Checker.fields (c : Checker) : List (String × Nat) :=
  [("traces", c.traces), ("lookups", c.lookups), ("responses", c.responses),
    ("emitted", c.emitted), ("unresolved", c.unresolved),
    ("empty_trace_stalls", c.emptyTraceStalls), ("valid", c.valid), ("untracked", c.untracked)]
  ++ ([Violation.outOfBounds, Violation.writeToReadOnly].filterMap fun kind =>
    match c.violations.get? kind with
    | none => none
    | some n => if n = 0 then none else some (kind.text, n))

/-- The counters on one line. -/
def Checker.text (c : Checker) : String :=
  "BcuStats \x7b " ++ String.join (c.fields.map fun field => field.1 ++ ": " ++ toString field.2 ++ ", ")
    ++ ".. \x7d"

/-- The counters on one line each. -/
def Checker.longText (c : Checker) : String :=
  "BcuStats \x7b\n"
    ++ String.join (c.fields.map fun field => "    " ++ field.1 ++ ": " ++ toString field.2 ++ ",\n")
    ++ "    ..\n\x7d"

end Stats

end BoundsCheck
