/-!
# Words

The fixed-width words that the other modules speak of: addresses, buffer ids, tags.  Times, lengths
and counters are natural numbers instead.

* `Address.advance` — the address a given number of bytes further on, stopping at the last one.
-/

set_option autoImplicit false

namespace BoundsCheck

/-- A byte address. -/
abbrev Address := UInt64

/-- The number a buffer is known by.  The number `0` belongs to no buffer. -/
abbrev BufferId := UInt16

/-- The label that leads an answer back to its question. -/
abbrev Tag := UInt32

/-- The number a trace is known by. -/
abbrev Uuid := UInt64

/-- The buffer id that stands for "no buffer". -/
def invalidBuffer : BufferId := 0

/-- The address `size` bytes after `addr`, or the last address if there is none. -/
def Address.advance (addr : Address) (size : UInt64) : Address :=
  if addr.toNat + size.toNat < UInt64.size then addr + size else 0xFFFFFFFFFFFFFFFF

end BoundsCheck
