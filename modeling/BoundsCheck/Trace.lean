import BoundsCheck.Address
import BoundsCheck.Text.Hex

/-!
# Traces

A trace is one memory instruction of a core: its kind and its accesses, one for each lane, each made
of one or more blocks.  Only the first block of the first access is checked.
-/

set_option autoImplicit false

namespace BoundsCheck

/-- What a memory instruction does. -/
inductive AccessKind
  | load
  | store
  | fence
  | prefetch
deriving DecidableEq, Repr

/-- The kind as it is written in messages. -/
def AccessKind.text : AccessKind → String
  | .load => "LOAD"
  | .store => "STORE"
  | .fence => "FENCE"
  | .prefetch => "PREFETCH"

/-- One block of an access: some bytes from an address on. -/
structure MemAccess where
  addr : Address
  size : UInt32
deriving DecidableEq, Repr

/-- A memory instruction of a core. -/
structure Trace where
  uuid : Uuid
  coreId : UInt64 := 0
  kind : AccessKind
  /-- The blocks of each access. -/
  blocks : List (List MemAccess) := []
deriving DecidableEq, Repr

namespace Trace

/-- What is checked: the first block of the first access. -/
def firstAccess? (t : Trace) : Option MemAccess := t.blocks.head?.bind List.head?

/-- The instruction writes. -/
def isStore (t : Trace) : Bool := t.kind == .store

/-- The trace with one more access, of a single block. -/
def withAccess (addr : Address) (size : UInt32) (t : Trace) : Trace :=
  { t with blocks := t.blocks ++ [[⟨addr, size⟩]] }

/-- A load of some bytes. -/
def load (uuid : Uuid) (addr : Address) (size : UInt32) : Trace where
  uuid := uuid
  kind := .load
  blocks := [[⟨addr, size⟩]]

/-- A store of some bytes. -/
def store (uuid : Uuid) (addr : Address) (size : UInt32) : Trace where
  uuid := uuid
  kind := .store
  blocks := [[⟨addr, size⟩]]

/-- The trace as it is written in messages. -/
def text (t : Trace) : String :=
  let access := match t.firstAccess? with
    | some a => "[" ++ Text.hexMarked a.addr.toNat ++ "+" ++ toString a.size ++ "]"
    | none => ""
  t.kind.text ++ access ++ " core=" ++ toString t.coreId ++ " (#" ++ toString t.uuid ++ ")"

end Trace

end BoundsCheck
