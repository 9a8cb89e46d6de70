import BoundsCheck.Lookup

/-!
# Pending misses

While a cache waits for the entry of a buffer, all requests for that buffer wait with it.  The
table of pending misses keeps them apart by buffer and, for each buffer, in the order they came.
-/

set_option autoImplicit false

namespace BoundsCheck

/-- The requests that wait for the entry of one buffer. -/
structure Miss where
  bufferId : BufferId
  waiting : List Lookup.Request
deriving DecidableEq, Repr

/-- The pending misses of a cache, at most one for each buffer. -/
structure MissTable where
  misses : List Miss := []
deriving DecidableEq, Repr

namespace MissTable

/-- The table without a pending miss. -/
def empty : MissTable := ⟨[]⟩

/-- The pending miss of a buffer. -/
def get? (t : MissTable) (id : BufferId) : Option Miss := t.misses.find? (·.bufferId == id)

/-- A miss of the buffer is pending. -/
def contains (t : MissTable) (id : BufferId) : Bool := t.misses.any (·.bufferId == id)

/-- A request joins the miss of its buffer, or starts one. -/
def add (t : MissTable) (req : Lookup.Request) : MissTable :=
  if t.contains req.bufferId then
    ⟨t.misses.map fun miss =>
      if miss.bufferId == req.bufferId then { miss with waiting := miss.waiting ++ [req] } else miss⟩
  else ⟨t.misses ++ [⟨req.bufferId, [req]⟩]⟩

/-- The request would join a miss at which others wait already. -/
def merges (t : MissTable) (req : Lookup.Request) : Bool :=
  match t.get? req.bufferId with
  | some miss => !miss.waiting.isEmpty
  | none => false

/-- Removes the miss of a buffer and returns the requests that waited at it. -/
def take? (t : MissTable) (id : BufferId) : Option (List Lookup.Request × MissTable) :=
  match t.get? id with
  | none => none
  | some miss => some (miss.waiting, ⟨t.misses.filter (·.bufferId != id)⟩)

/-- The table with all misses forgotten. -/
def clear (t : MissTable) : MissTable := { t with misses := [] }

/-- How many misses are pending. -/
def size (t : MissTable) : Nat := t.misses.length

/-- No miss is pending. -/
def isEmpty (t : MissTable) : Bool := t.misses.isEmpty

/-- How many requests wait, whatever for. -/
def waitingCount (t : MissTable) : Nat := (t.misses.flatMap (·.waiting)).length

end MissTable

end BoundsCheck
