import BoundsCheck.Fault

/-!
# Arbiters

An arbiter chooses one of several inputs.  It asks them in turn, beginning with the one its cursor
stands at, and the first that is ready wins.  With priorities the cursor stays at the first input;
in round-robin order it moves behind the winner.
-/

set_option autoImplicit false

namespace BoundsCheck

/-- Who comes first when several inputs are ready. -/
inductive ArbitrationPolicy
  | priority
  | roundRobin
deriving DecidableEq, Repr

/-- A choice among `inputs` inputs. -/
structure Arbiter where
  policy : ArbitrationPolicy
  inputs : Nat
  cursor : Nat := 0
deriving DecidableEq, Repr

namespace Arbiter

/-- An arbiter with the cursor at the first input. -/
def ofInputs (policy : ArbitrationPolicy) (inputs : Nat) : Arbiter := { policy, inputs }

/-- An arbiter among at least one input. -/
def new (policy : ArbitrationPolicy) (inputs : Nat) : Except Fault Arbiter :=
  if inputs = 0 then .error .noInputs else .ok (ofInputs policy inputs)

/-- The inputs in the order in which they are asked. -/
def order (a : Arbiter) : List Nat :=
  (List.range a.inputs).map fun i => (a.cursor + i) % a.inputs

/-- The first input that is ready. -/
def winner? (a : Arbiter) (ready : Nat → Bool) : Option Nat := a.order.find? ready

/-- The arbiter after the input has won. -/
def advance (a : Arbiter) (winner : Nat) : Arbiter :=
  match a.policy with
  | .priority => a
  | .roundRobin => { a with cursor := (winner + 1) % a.inputs }

/-- The first input that is ready, and the arbiter after its win. -/
def select (a : Arbiter) (ready : Nat → Bool) : Option Nat × Arbiter :=
  match a.winner? ready with
  | none => (none, a)
  | some winner => (some winner, a.advance winner)

/-- The arbiter with the cursor at the first input. -/
def reset (a : Arbiter) : Arbiter := { a with cursor := 0 }

end Arbiter

end BoundsCheck
