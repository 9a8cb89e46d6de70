import BoundsCheck.Drive

/-!
# Using a machine from outside

The ports of the components of a machine are open.  Beside asking something of the machine, whoever
uses it can put an item on any of its ports, as if one of its components had sent it.  Components
can then be given what they never asked for, so that a cycle may be cut short.

* `Parcel` — an item and the port that it is put on.
* `Machine.send` — puts an item on a port.
* `Use` — a call, or an item that is put on a port.
* `Machine.outcomes` — what comes of several uses, one after the other.
-/

set_option autoImplicit false

namespace BoundsCheck

/-- A link between two components of a machine. -/
inductive Place
  /-- The link above the cache of a core. -/
  | l1 (core : Nat)
  /-- The link above an input of the switch. -/
  | input (core : Nat)
  /-- The link above the shared cache. -/
  | l2
  /-- The link above the table. -/
  | table
deriving DecidableEq, Repr

/-- An item and the port that it is put on. -/
inductive Parcel
  /-- A trace on its way into the checker of a core. -/
  | entering (core : Nat) (trace : Trace)
  /-- A trace on its way out of the checker of a core. -/
  | leaving (core : Nat) (trace : Trace)
  /-- A question on a link. -/
  | request (place : Place) (req : Lookup.Request)
  /-- An answer on a link. -/
  | response (place : Place) (rsp : Lookup.Response)
deriving DecidableEq, Repr

/-- What can be done with a machine. -/
inductive Use
  /-- Something is asked of the machine. -/
  | call (call : Call)
  /-- An item is put on a port in the cycle `now`, and becomes visible after `delay` cycles. -/
  | send (parcel : Parcel) (delay now : Nat)
deriving DecidableEq, Repr

namespace Machine

/-- Changes a core, if there is one with this number. -/
def onCore (core : Nat) (f : Core → Core) (m : Machine) : Machine :=
  { m with cores := m.cores.modify core f }

/-- Changes a link, if it exists. -/
def onLink (place : Place) (f : Lookup.Link → Lookup.Link) (m : Machine) : Machine :=
  match place with
  | .l1 core => m.onCore core fun core => { core with l1.port := f core.l1.port }
  | .input core => { m with switch.inputs := m.switch.inputs.modify core f }
  | .l2 => { m with l2.port := f m.l2.port }
  | .table => { m with table.port := f m.table.port }

/-- Puts an item on its port. -/
def deliver (parcel : Parcel) (delay now : Nat) (m : Machine) : Machine :=
  match parcel with
  | .entering core trace => m.onCore core fun core =>
    { core with checker.input := core.checker.input.send trace delay now }
  | .leaving core trace => m.onCore core fun core =>
    { core with checker.output := core.checker.output.send trace delay now }
  | .request place req => m.onLink place (·.request req delay now)
  | .response place rsp => m.onLink place (·.respond rsp delay now)

/-- Puts an item on its port, unless it were visible at once. -/
def send (parcel : Parcel) (delay now : Nat) (m : Machine) : Machine :=
  if delay = 0 then m else m.deliver parcel delay now

/-- Uses a machine once. -/
def use (use : Use) (m : Machine) : Outcome Error Machine :=
  match use with
  | .call call => m.call call
  | .send parcel delay now => .ok (m.send parcel delay now)

/-- The machine after several uses, each of which may fail. -/
def afterUses (uses : List Use) (m : Machine) : Machine :=
  uses.foldl (fun m use => (m.use use).state) m

/-- What comes of several uses, one after the other. -/
def outcomes (m : Machine) : List Use → List (Outcome Error Machine)
  | [] => []
  | use :: rest => m.use use :: outcomes (m.use use).state rest

end Machine

end BoundsCheck
