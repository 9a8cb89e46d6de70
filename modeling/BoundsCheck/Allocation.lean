import BoundsCheck.Fault
import BoundsCheck.RangeEntry

/-!
# Allocations

An allocation map says which buffer each address was last allocated to.  It keeps the pieces that
are left of the allocations made so far: a new allocation cuts away what it covers of older ones.

* `AllocationMap.allocate` — makes a new allocation.
* `AllocationMap.resolve` — the buffer an address belongs to.
-/

set_option autoImplicit false

namespace BoundsCheck

/-- The addresses from `start` up to but without `stop`, given to a buffer. -/
structure Allocation where
  bufferId : BufferId
  start : Address
  stop : Address
deriving DecidableEq, Repr

namespace Allocation

/-- The allocation of the buffer of a range entry.  It ends at the last address at the latest. -/
def ofEntry (e : RangeEntry) : Allocation := ⟨e.bufferId, e.base, e.stop⟩

/-- How many bytes were allocated. -/
def bytes (a : Allocation) : UInt64 := if a.start ≤ a.stop then a.stop - a.start else 0

/-- The allocation as it is written in messages. -/
def text (a : Allocation) : String :=
  "Allocation \x7b buffer_id: " ++ toString a.bufferId
    ++ ", start_addr: " ++ Text.hexMarked a.start.toNat
    ++ ", end_addr: " ++ Text.hexMarked a.stop.toNat
    ++ ", num_bytes: " ++ toString a.bytes ++ " \x7d"

end Allocation

/-- What is left of an allocation: the addresses from `start` up to but without `stop`. -/
structure Piece where
  start : Address
  stop : Address
  allocation : Allocation
deriving DecidableEq, Repr

namespace Piece

/-- The piece has the address. -/
def contains (p : Piece) (addr : Address) : Bool := p.start ≤ addr && addr < p.stop

/-- What the piece has before `addr`. -/
def before? (addr : Address) (p : Piece) : Option Piece :=
  if p.start < addr then some { p with stop := min p.stop addr } else none

/-- What the piece has from `addr` on. -/
def after? (addr : Address) (p : Piece) : Option Piece :=
  if addr < p.stop then some { p with start := max p.start addr } else none

end Piece

/-- The pieces that are left of all allocations, in the order of their addresses. -/
structure AllocationMap where
  pieces : List Piece := []
deriving DecidableEq, Repr

namespace AllocationMap

/-- Some of the addresses are allocated already. -/
def overlaps (m : AllocationMap) (a : Allocation) : Bool :=
  m.pieces.any fun p => p.start < a.stop && a.start < p.stop

/-- Makes a new allocation, which cuts away what it covers of older ones.  There has to be an
address to allocate. -/
def allocate (m : AllocationMap) (a : Allocation) : Except Fault AllocationMap :=
  if a.start < a.stop then
    .ok ⟨m.pieces.filterMap (Piece.before? a.start) ++ [⟨a.start, a.stop, a⟩]
      ++ m.pieces.filterMap (Piece.after? a.stop)⟩
  else .error .emptyRange

/-- The buffer the address was last allocated to. -/
def resolve (m : AllocationMap) (addr : Address) : Option BufferId :=
  (m.pieces.find? (·.contains addr)).map (·.allocation.bufferId)

end AllocationMap

end BoundsCheck
