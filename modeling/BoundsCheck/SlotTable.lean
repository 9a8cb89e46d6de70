import BoundsCheck.Address

/-!
# Slot tables

A slot table keeps a bounded number of values, each under a tag that is its own as long as the
value is kept.  A new value gets the smallest tag that is free.

* `SlotTable.allocate`, `SlotTable.release` — take a slot into use and give it back.
* `SlotTable.Error` — the two ways in which these fail.  A failed call leaves the table as it was.
-/

set_option autoImplicit false

namespace BoundsCheck

/-- A bounded number of values under tags. -/
structure SlotTable (α : Type) where
  /-- The slots in the order of their tags. -/
  slots : List (Option α)
  /-- How many slots are in use. -/
  used : Nat
deriving DecidableEq, Repr

/-- Why a slot could not be had. -/
inductive SlotTable.Error
  /-- All slots are in use. -/
  | exhausted (capacity : Nat)
  /-- No value is kept under the tag. -/
  | unknownTag (tag : Tag)
deriving DecidableEq, Repr

/-- The text an error is reported with. -/
def SlotTable.Error.message : SlotTable.Error → String
  | .exhausted capacity =>
    "slot table exhausted: all " ++ toString capacity ++ " slots are in use"
  | .unknownTag tag => "tag " ++ toString tag ++ " is not allocated"

namespace SlotTable

variable {α : Type}

/-- A table with the given number of slots, all free. -/
def ofCapacity (capacity : Nat) : SlotTable α := ⟨List.replicate capacity none, 0⟩

/-- How many slots there are. -/
def capacity (t : SlotTable α) : Nat := t.slots.length

/-- No slot is in use. -/
def isEmpty (t : SlotTable α) : Bool := t.used == 0

/-- No slot is free. -/
def isFull (t : SlotTable α) : Bool := t.used == t.capacity

/-- The value kept under the tag. -/
def get? (t : SlotTable α) (tag : Tag) : Option α := t.slots[tag.toNat]?.join

/-- A value is kept under the tag. -/
def contains (t : SlotTable α) (tag : Tag) : Bool := (t.get? tag).isSome

/-- The value kept under the tag, or the error that there is none. -/
def get (t : SlotTable α) (tag : Tag) : Except Error α :=
  match t.get? tag with
  | some value => .ok value
  | none => .error (.unknownTag tag)

/-- Replaces what is kept under the tag.  A tag beyond the last slot is ignored. -/
def set (t : SlotTable α) (tag : Tag) (value : α) : SlotTable α :=
  { t with slots := t.slots.set tag.toNat (some value) }

/-- Keeps a value under the smallest free tag. -/
def allocate (t : SlotTable α) (value : α) : Except Error (Tag × SlotTable α) :=
  match t.slots.findIdx? Option.isNone with
  | none => .error (.exhausted t.capacity)
  | some index => .ok (UInt32.ofNat index, ⟨t.slots.set index (some value), t.used + 1⟩)

/-- Gives the slot of a tag back, together with the value it kept. -/
def release (t : SlotTable α) (tag : Tag) : Except Error (α × SlotTable α) :=
  match t.get? tag with
  | none => .error (.unknownTag tag)
  | some value => .ok (value, ⟨t.slots.set tag.toNat none, t.used - 1⟩)

/-- Changes the value kept under the tag. -/
def modify (t : SlotTable α) (tag : Tag) (f : α → α) : Except Error (α × SlotTable α) :=
  match t.get? tag with
  | none => .error (.unknownTag tag)
  | some value => .ok (f value, t.set tag (f value))

/-- The same slots, all free. -/
def clear (t : SlotTable α) : SlotTable α := ⟨t.slots.map fun _ => none, 0⟩

end SlotTable

end BoundsCheck
