import BoundsCheck.Allocation
import BoundsCheck.Config.Basic

/-!
# Resolvers

A resolver finds the buffer that an address belongs to.  Single addresses can be mapped to a
buffer, and whole buffers can be allocated; the mapping of a single address counts more.

* `Mappings` — single addresses, the last mapping of an address counts.
* `Allocations` — single addresses and allocated buffers.
* `Resolver` — the resolver of a machine.
-/

set_option autoImplicit false

namespace BoundsCheck

/-- Addresses that were mapped to a buffer, the last mapping first. -/
structure Mappings where
  recent : List AddressMapping := []
deriving DecidableEq, Repr

namespace Mappings

/-- The buffer the address was last mapped to. -/
def resolve (m : Mappings) (addr : Address) : Option BufferId :=
  (m.recent.find? (·.addr == addr)).map (·.bufferId)

/-- Maps an address to a buffer. -/
def insert (m : Mappings) (addr : Address) (id : BufferId) : Mappings :=
  ⟨⟨addr, id⟩ :: m.recent⟩

/-- The mappings of a list, later ones counting more. -/
def ofList (mappings : List AddressMapping) : Mappings := ⟨mappings.reverse⟩

end Mappings

/-- Mapped addresses and allocated buffers. -/
structure Allocations where
  ranges : AllocationMap := {}
  exact : Mappings := {}
deriving DecidableEq, Repr

namespace Allocations

/-- Allocates the buffer of an entry.  A buffer without an address is left out. -/
def insert (a : Allocations) (entry : RangeEntry) : Except Fault Allocations :=
  if entry.size = 0 then .ok a
  else (a.ranges.allocate (.ofEntry entry)).map fun ranges => { a with ranges }

/-- Maps a single address to a buffer. -/
def insertExact (a : Allocations) (addr : Address) (id : BufferId) : Allocations :=
  { a with exact := a.exact.insert addr id }

/-- Allocates the buffers of several entries, one after the other. -/
def insertAll (a : Allocations) : List RangeEntry → Except Fault Allocations
  | [] => .ok a
  | entry :: rest => do (← a.insert entry).insertAll rest

/-- The buffer an address belongs to. -/
def resolve (a : Allocations) (addr : Address) : Option BufferId :=
  (a.exact.resolve addr).or (a.ranges.resolve addr)

end Allocations

/-- The resolver of a machine. -/
inductive Resolver
  | exact (mappings : Mappings)
  | ranges (allocations : Allocations)
deriving DecidableEq, Repr

namespace Resolver

/-- The buffer an address belongs to. -/
def resolve : Resolver → Address → Option BufferId
  | .exact mappings => mappings.resolve
  | .ranges allocations => allocations.resolve

/-- The resolver a configuration asks for. -/
def ofConfig (c : Config) : Except Fault Resolver :=
  match c.resolver.kind with
  | .exact =>
    .ok (.exact (.ofList (c.table.entries.map (fun e => ⟨e.base, e.bufferId⟩)
      ++ c.resolver.addresses)))
  | .range => do
    let allocations ← Allocations.insertAll {} c.table.entries
    return .ranges { allocations with exact := .ofList c.resolver.addresses }

end Resolver

end BoundsCheck
