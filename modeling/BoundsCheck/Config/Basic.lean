import BoundsCheck.Arbiter
import BoundsCheck.LineSet

/-!
# Configurations

The parameters of a machine, with the values they have unless others are given.

* `Config` — all parameters.
* `CheckerConfig`, `CacheConfig`, `TableConfig`, `ResolverConfig`, `SwitchConfig` — those of the
  components.
* `benchmarkEntries` — the range table of the built-in benchmark.
-/

set_option autoImplicit false

namespace BoundsCheck

/-- What becomes of a trace whose address belongs to no buffer. -/
inductive UnresolvedPolicy
  /-- It vanishes. -/
  | drop
  /-- It leaves unchecked. -/
  | forward
deriving DecidableEq, Repr

/-- Which addresses lead to a buffer. -/
inductive ResolverKind
  /-- The first address of the buffer alone. -/
  | exact
  /-- All addresses of the buffer. -/
  | range
deriving DecidableEq, Repr

/-- The parameters of a checker. -/
structure CheckerConfig where
  /-- How many traces may be under way at once. -/
  queueSize : UInt64 := 16
  unresolved : UnresolvedPolicy := .drop
deriving DecidableEq, Repr

/-- The parameters of a cache. -/
structure CacheConfig where
  /-- How many entries are held at most. -/
  capacity : UInt64 := 16384
  hitLatency : UInt64 := 1
  forwardingLatency : UInt64 := 1
  policy : ReplacementPolicy := .fifo
deriving DecidableEq, Repr

/-- The range table of the built-in benchmark. -/
def benchmarkEntries : List RangeEntry :=
  [⟨1, 0xFEFFFFC8, 0x28, false, 0⟩, ⟨2, 0xFEFFFFBC, 0xA, false, 0⟩,
    ⟨3, 0x8000A820, 0xD, true, 0⟩, ⟨4, 0x8000BA5C, 0xC8, false, 0⟩]

/-- The parameters of the range table. -/
structure TableConfig where
  latency : UInt64 := 4
  entries : List RangeEntry := benchmarkEntries
deriving DecidableEq, Repr

/-- An address that leads to a buffer. -/
structure AddressMapping where
  addr : Address
  bufferId : BufferId
deriving DecidableEq, Repr

/-- The parameters of the resolver. -/
structure ResolverConfig where
  kind : ResolverKind := .exact
  addresses : List AddressMapping := []
deriving DecidableEq, Repr

/-- The parameters of the switch. -/
structure SwitchConfig where
  policy : ArbitrationPolicy := .roundRobin
  delay : UInt64 := 1
deriving DecidableEq, Repr

/-- The parameters of a machine.  Unless told otherwise, the shared cache forwards its misses with
the latency of the table behind it. -/
structure Config where
  cores : UInt64 := 1
  checker : CheckerConfig := {}
  l1 : CacheConfig := {}
  l2 : CacheConfig := { forwardingLatency := 4 }
  table : TableConfig := {}
  resolver : ResolverConfig := {}
  switch : SwitchConfig := {}
deriving DecidableEq, Repr

end BoundsCheck
