/-!
# Faults

A fault is a misuse of a component by the program around it.  Unlike an error of a configuration or
of a run it cannot be handled: whoever meets one stops.
-/

set_option autoImplicit false

namespace BoundsCheck

/-- What a component was misused for. -/
inductive Fault
  /-- An item was put on a port to arrive in the cycle it was sent. -/
  | zeroDelay
  /-- A set of cached entries was asked for that holds nothing. -/
  | zeroCapacity
  /-- An arbiter was asked for that has nobody to choose from. -/
  | noInputs
  /-- A range without an address was to be allocated. -/
  | emptyRange
deriving DecidableEq, Repr

/-- The text a fault is reported with. -/
def Fault.message : Fault → String
  | .zeroDelay => "port: send with zero delay"
  | .zeroCapacity => "entry set: zero capacity"
  | .noInputs => "arbiter: no inputs"
  | .emptyRange => "assertion failed: range.start < range.end"

end BoundsCheck
