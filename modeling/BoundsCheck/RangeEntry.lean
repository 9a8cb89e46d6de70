import BoundsCheck.Address
import BoundsCheck.Text.Hex

/-!
# Range entries

A range entry says which addresses belong to a buffer and whether they may be written.

* `RangeEntry.sentinel` — the entry that is handed out for buffers nobody knows.
* `RangeEntry.contains` — the addresses of the buffer.
-/

set_option autoImplicit false

namespace BoundsCheck

/-- The addresses of a buffer, and whether it is protected from stores. -/
structure RangeEntry where
  bufferId : BufferId
  base : Address
  size : UInt64
  readOnly : Bool := false
  kernelId : UInt64 := 0
deriving DecidableEq, Repr

namespace RangeEntry

/-- The entry for buffers that the table does not know.  It has no address. -/
def sentinel : RangeEntry := ⟨invalidBuffer, 0, 0, false, 0⟩

/-- An entry is the sentinel if it has the id of no buffer. -/
def isSentinel (e : RangeEntry) : Bool := e.bufferId == invalidBuffer

/-- The address belongs to the buffer.  A buffer that would run over the last address still
contains that address. -/
def contains (e : RangeEntry) (addr : Address) : Bool :=
  e.base ≤ addr && addr - e.base < e.size

/-- The address just after the buffer, or the last address if there is none. -/
def stop (e : RangeEntry) : Address := Address.advance e.base e.size

/-- The entry as it is written in messages. -/
def text (e : RangeEntry) : String :=
  "(buffer_id=" ++ Text.hex e.bufferId.toNat ++ ", base_addr=" ++ Text.hexMarked e.base.toNat
    ++ ", size=" ++ Text.hexMarked e.size.toNat ++ ", read_only=" ++ toString e.readOnly
    ++ ", kernel_id=" ++ toString e.kernelId ++ ")"

end RangeEntry

end BoundsCheck
