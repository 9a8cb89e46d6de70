import BoundsCheck.Address

/-!
# Documents

The values that configurations, traces and reports are written as, apart from the notation they are
written in.

A record may also be written as the list of its values, and a name as the only field of a record.

* `Document` — a value.
* `Document.fields?` — the fields of a record by name.
* `Document.word64?`, `Document.items?`, … — the readers of single values.
-/

set_option autoImplicit false

namespace BoundsCheck

/-- A value as it is written in a document. -/
inductive Document
  /-- The value that stands for the absence of a value. -/
  | null
  | bool (value : Bool)
  | int (value : Int)
  | text (value : String)
  /-- A value that can be passed over but not read: a number that is not written as an integer, or
  a text or name that is not made of characters. -/
  | unreadable
  | list (items : List Document)
  /-- Values under names, in the order in which they were written. -/
  | record (fields : List (String × Document))
deriving Repr, Inhabited, BEq

namespace Document

/-! ## Single values -/

/-- A value of a document as a value of the program, if it is one. -/
abbrev Reader (α : Type) := Document → Option α

/-- Reads a truth value. -/
def bool? : Reader Bool
  | .bool value => some value
  | _ => none

/-- Reads a number below a bound. -/
def natBelow? (bound : Nat) : Reader Nat
  | .int value => if 0 ≤ value ∧ value < bound then some value.toNat else none
  | _ => none

/-- Reads a number of 64 bits. -/
def word64? (d : Document) : Option UInt64 := (d.natBelow? UInt64.size).map UInt64.ofNat

/-- Reads a number of 32 bits. -/
def word32? (d : Document) : Option UInt32 := (d.natBelow? UInt32.size).map UInt32.ofNat

/-- Reads a number of 16 bits. -/
def word16? (d : Document) : Option UInt16 := (d.natBelow? UInt16.size).map UInt16.ofNat

/-- Reads a text. -/
def text? : Reader String
  | .text value => some value
  | _ => none

/-- Reads one of several names. -/
def choice? {α : Type} (names : List (String × α)) : Reader α
  | .text name => names.lookup name
  | .record [(name, .null)] => names.lookup name
  | _ => none

/-! ## Lists and records -/

/-- Reads a list of values. -/
def items? {α : Type} (read : Reader α) : Reader (List α)
  | .list items => items.mapM read
  | _ => none

/-- The value of a field.  A field must not be written twice. -/
def field? (fields : List (String × Document)) (name : String) : Option (Option Document) :=
  match fields.filter (·.1 == name) with
  | [] => some none
  | [field] => some (some field.2)
  | _ => none

/-- The values of the fields with the given names, as far as they are written. -/
def fields? (names : List String) : Reader (List (Option Document))
  | .record fields => names.mapM (field? fields)
  | .list items =>
    if items.length ≤ names.length then
      some (items.map some ++ List.replicate (names.length - items.length) none)
    else none
  | _ => none

/-- Reads a field that has to be written. -/
def required? {α : Type} (read : Reader α) : Option Document → Option α
  | none => none
  | some d => read d

/-- Reads a field that has a value of its own when it is not written. -/
def optional? {α : Type} (read : Reader α) (default : α) : Option Document → Option α
  | none => some default
  | some d => read d

/-! ## Writing -/

/-- Writes a number. -/
def ofNat (n : Nat) : Document := .int n

/-- Writes a number of 64 bits. -/
def ofWord64 (n : UInt64) : Document := .int n.toNat

/-- Writes a number of 32 bits. -/
def ofWord32 (n : UInt32) : Document := .int n.toNat

/-- Writes a number of 16 bits. -/
def ofWord16 (n : UInt16) : Document := .int n.toNat

/-- Writes a value that may be missing. -/
def ofOption {α : Type} (write : α → Document) : Option α → Document
  | none => .null
  | some value => write value

end Document

end BoundsCheck
