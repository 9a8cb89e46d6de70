import BoundsCheck.RangeEntry

/-!
# Verdicts

The verdict on an access compares its address and its kind with the range entry of the buffer the
access was meant for.

* `Violation` — the two ways in which an access can be wrong.
* `Verdict.judge` — the verdict on an access.
-/

set_option autoImplicit false

namespace BoundsCheck

/-- What is wrong with an access. -/
inductive Violation
  /-- The address lies outside of the buffer. -/
  | outOfBounds
  /-- The access writes to a buffer that is protected from stores. -/
  | writeToReadOnly
deriving DecidableEq, Repr

/-- The violation as it is written in messages. -/
def Violation.text : Violation → String
  | .outOfBounds => "out of bounds"
  | .writeToReadOnly => "write to read-only"

/-- The outcome of the check of one access. -/
structure Verdict where
  cycle : Nat
  uuid : Uuid
  addr : Address
  bufferId : BufferId
  base : Address
  size : UInt64
  isStore : Bool
  inBounds : Bool
  permitted : Bool
  valid : Bool
  /-- The buffer is one of the table. -/
  tracked : Bool
  reason : Option Violation
deriving DecidableEq, Repr

namespace Verdict

/-- The first reason to object to an access, if there is one. -/
def objection? (inBounds permitted : Bool) : Option Violation :=
  if !inBounds then some .outOfBounds
  else if !permitted then some .writeToReadOnly
  else none

/-- The verdict on an access to `addr` that was meant for the buffer `bufferId`, given the range
entry that was found for that buffer. -/
def judge (addr : Address) (bufferId : BufferId) (isStore : Bool) (entry : RangeEntry)
    (cycle : Nat := 0) (uuid : Uuid := 0) : Verdict where
  cycle := cycle
  uuid := uuid
  addr := addr
  bufferId := bufferId
  base := entry.base
  size := entry.size
  isStore := isStore
  inBounds := entry.contains addr
  permitted := !(entry.readOnly && isStore)
  valid := entry.contains addr && !(entry.readOnly && isStore)
  tracked := !entry.isSentinel
  reason := objection? (entry.contains addr) (!(entry.readOnly && isStore))

/-- The access is wrong.  Nothing can be said against an access to an unknown buffer. -/
def isViolation (v : Verdict) : Bool := v.tracked && !v.valid

/-- The verdict as it is written in messages. -/
def text (v : Verdict) : String :=
  let reason := match v.reason with
    | some r => " (" ++ r.text ++ ")"
    | none => ""
  (if v.isStore then "store " else "load ") ++ Text.hexMarked v.addr.toNat
    ++ " buffer_id=" ++ toString v.bufferId
    ++ " range=[" ++ Text.hexMarked v.base.toNat
    ++ ", " ++ Text.hexMarked (Address.advance v.base v.size).toNat ++ ")"
    ++ " in_bounds=" ++ toString v.inBounds ++ " permitted=" ++ toString v.permitted
    ++ " valid=" ++ toString v.valid ++ reason
    ++ (if v.tracked then "" else " [untracked]") ++ " (#" ++ toString v.uuid ++ ")"

end Verdict

end BoundsCheck
