import BoundsCheck.Fault
import BoundsCheck.RangeEntry

/-!
# Cached entries

The entries a cache holds, in the order in which they will be replaced.  A new entry goes to the
back; when the set is full, the one in front is evicted for it.  Under `lru` an entry that is used
goes to the back as well, so the one in front is always the least recently used.

An entry is held for the buffer that it names, and for no other: it is added under that buffer, and
stays under it when it is used.  So no key is kept beside it.
-/

set_option autoImplicit false

namespace BoundsCheck

/-- Which entry gives way when a cache is full. -/
inductive ReplacementPolicy
  /-- The least recently used one. -/
  | lru
  /-- The one that came first. -/
  | fifo
deriving DecidableEq, Repr

/-- A bounded set of entries, the next victim in front. -/
structure LineSet where
  lines : List RangeEntry := []
  capacity : Nat
  policy : ReplacementPolicy
deriving DecidableEq, Repr

namespace LineSet

/-- A set with room for at least one entry. -/
def new (capacity : Nat) (policy : ReplacementPolicy) : Except Fault LineSet :=
  if capacity = 0 then .error .zeroCapacity else .ok ⟨[], capacity, policy⟩

/-- How many entries are held. -/
def size (s : LineSet) : Nat := s.lines.length

/-- No entry is held. -/
def isEmpty (s : LineSet) : Bool := s.lines.isEmpty

/-- The next new entry needs a victim. -/
def isFull (s : LineSet) : Bool := s.capacity ≤ s.size

/-- The buffers whose entries are held, the next victim first. -/
def ids (s : LineSet) : List BufferId := s.lines.map (·.bufferId)

/-- The entry of a buffer. -/
def get? (s : LineSet) (id : BufferId) : Option RangeEntry := s.lines.find? (·.bufferId == id)

/-- The entry of the buffer is held. -/
def contains (s : LineSet) (id : BufferId) : Bool := (s.get? id).isSome

/-- The set after the entry of a buffer was used. -/
def touch (s : LineSet) (id : BufferId) : LineSet :=
  match s.policy with
  | .fifo => s
  | .lru =>
    match s.get? id with
    | none => s
    | some entry => { s with lines := s.lines.filter (·.bufferId != id) ++ [entry] }

/-- Looks the entry of a buffer up and uses it. -/
def access (s : LineSet) (id : BufferId) : Option RangeEntry × LineSet := (s.get? id, s.touch id)

/-- The entry that has to give way before an entry can be added. -/
def victim? (s : LineSet) (entry : RangeEntry) : Option RangeEntry :=
  if s.contains entry.bufferId then none
  else if s.isFull then s.lines.head?
  else none

/-- Adds an entry, unless one of its buffer is held already. -/
def add (s : LineSet) (entry : RangeEntry) : LineSet :=
  if s.contains entry.bufferId then s
  else if s.isFull then { s with lines := s.lines.tail ++ [entry] }
  else { s with lines := s.lines ++ [entry] }

/-- Adds an entry and returns the one that was evicted for it. -/
def insert (s : LineSet) (entry : RangeEntry) : Option RangeEntry × LineSet :=
  (s.victim? entry, s.add entry)

/-- The same set, holding nothing. -/
def clear (s : LineSet) : LineSet := { s with lines := [] }

end LineSet

end BoundsCheck
