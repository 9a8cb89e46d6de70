import BoundsCheck.Machine

/-!
# Driving a machine

Whoever uses a machine gives it traces, lets it work and takes its results.  A drive is a machine in
use, together with what has been given to it and taken from it since it was last reset.

* `Call` — what can be asked of a machine.
* `Machine.call` — does what is asked.
* `Drive` — a machine in use.
* `Drive.after` — the drive after several calls.
-/

set_option autoImplicit false

namespace BoundsCheck

/-- What can be asked of a machine. -/
inductive Call
  | push (trace : Trace)
  | cycle
  | run (limit : Nat)
  | takeCompleted
  | takeVerdicts
  | reset
deriving DecidableEq, Repr

/-- Does what is asked. -/
def Machine.call (call : Call) (m : Machine) : Outcome Machine.Error Machine :=
  match call with
  | .push trace => m.push trace
  | .cycle => m.cycle
  | .run limit => m.run limit
  | .takeCompleted => .ok m.dropCompleted
  | .takeVerdicts => .ok m.dropVerdicts
  | .reset => .ok m.reset

/-- A machine in use.  Lists begin with what came first. -/
structure Drive where
  machine : Machine
  /-- The traces that the machine has accepted. -/
  accepted : List Trace := []
  /-- The completed traces that were taken, for each core. -/
  takenCompleted : Nat → List Trace := fun _ => []
  /-- The verdicts that were taken, each with the number of its core. -/
  takenVerdicts : List (UInt64 × Verdict) := []

namespace Drive

/-- A machine that has not been used. -/
def start (m : Machine) : Drive := { machine := m }

/-- The drive after a call, which may fail. -/
def step (d : Drive) (call : Call) : Drive :=
  let outcome := d.machine.call call
  match call with
  | .push trace =>
    { d with
      machine := outcome.state
      accepted := if outcome.error?.isNone then d.accepted ++ [trace] else d.accepted }
  | .cycle | .run _ => { d with machine := outcome.state }
  | .takeCompleted =>
    { d with
      machine := outcome.state
      takenCompleted := fun core => d.takenCompleted core ++ d.machine.completed core }
  | .takeVerdicts =>
    { d with
      machine := outcome.state
      takenVerdicts := d.takenVerdicts ++ d.machine.verdicts }
  | .reset => start outcome.state

/-- The drive after several calls. -/
def after (calls : List Call) (d : Drive) : Drive := calls.foldl step d

/-- The traces that the machine has accepted for a core. -/
def pushed (d : Drive) (core : Nat) : List Trace := d.accepted.filter (·.coreId.toNat = core)

/-- The traces that a core has completed, taken or not. -/
def completed (d : Drive) (core : Nat) : List Trace :=
  d.takenCompleted core ++ d.machine.completed core

/-- The verdicts of a core among those of all cores. -/
def verdictsOf (core : Nat) (verdicts : List (UInt64 × Verdict)) : List Verdict :=
  verdicts.filterMap fun (id, verdict) => if id = UInt64.ofNat core then some verdict else none

/-- The verdicts of a core, taken or not. -/
def verdicts (d : Drive) (core : Nat) : List Verdict :=
  verdictsOf core (d.takenVerdicts ++ d.machine.verdicts)

end Drive

end BoundsCheck
