import BoundsCheck.Drive

/-!
# Hazards

Some steps make sense only in some states: a delay has to be positive, a number must not become
negative, and an input has to exist.  For each component, the hazards of a step from a given state
are those of its parts that would not make sense, in the order in which they are reached.  The step
itself is a function of the component; nothing here changes a state.
-/

set_option autoImplicit false

namespace BoundsCheck

/-- A part of a step that does not make sense. -/
inductive Hazard
  /-- Something is sent and would be visible at once. -/
  | zeroDelay
  /-- Something was sent in a later cycle than it is taken out. -/
  | sentLater
  /-- An answer arrives for a trace that waits for none. -/
  | noneRemaining
  /-- A slot is given back, but none is in use. -/
  | noneUsed
  /-- A switch is asked for an input that it does not have. -/
  | noSuchInput (input : Nat)
deriving DecidableEq, Repr

namespace Hazard

/-- The hazards of sending something. -/
def ofDelay (delay : UInt64) : List Hazard := if delay = 0 then [.zeroDelay] else []

/-- The hazards of counting the cycles since something was sent. -/
def ofAge (now sent : Nat) : List Hazard := if now < sent then [.sentLater] else []

/-- The hazards of using the input with the given number out of so many. -/
def ofInput (input inputs : Nat) : List Hazard :=
  if input < inputs then [] else [.noSuchInput input]

end Hazard

open Hazard

/-! ## The range table -/

/-- The hazards of a cycle of the table. -/
def RangeTable.hazards (now : Nat) (t : RangeTable) : List Hazard :=
  (t.port.requests.drain now).1.flatMap fun packet => ofAge now packet.sent ++ ofDelay t.latency

/-! ## Range caches -/

namespace RangeCache

/-- The hazards of taking in a response from below. -/
def responseHazards (now : Nat) (lower : Lookup.Link) (c : RangeCache) : List Hazard :=
  match lower.responses.pop? now with
  | none => []
  | some (packet, _) =>
    match c.misses.take? packet.item.bufferId with
    | none => []
    | some (waiting, _) => waiting.flatMap fun _ => ofDelay c.config.hitLatency

/-- The hazards of answering a lookup or passing it on. -/
def accessHazards (req : Lookup.Request) (c : RangeCache) : List Hazard :=
  if c.lines.contains req.bufferId then ofDelay c.config.hitLatency
  else if c.misses.merges req then []
  else ofDelay c.config.forwardingLatency

/-- The hazards of taking in a lookup from above. -/
def requestHazards (now : Nat) (c : RangeCache) : List Hazard :=
  match c.port.requests.pop? now with
  | none => []
  | some (packet, _) => ofAge now packet.sent ++ c.accessHazards packet.item

/-- The hazards of a cycle of a cache. -/
def hazards (now : Nat) (lower : Lookup.Link) (c : RangeCache) : List Hazard :=
  c.responseHazards now lower ++ (c.takeResponse now lower).1.requestHazards now

end RangeCache

/-! ## Switches -/

namespace Switch

/-- The hazards of passing everything through. -/
def passHazards (s : Switch) : List Hazard :=
  ofInput 0 s.inputs.length ++ ofInput 0 s.stats.grants.length
    ++ ofInput 0 s.stats.responses.length

/-- The hazards of delivering a response.  A response for an input that does not exist is an error
and not a hazard. -/
def routeHazards (now : Nat) (lower : Lookup.Link) (s : Switch) : List Hazard :=
  match lower.responses.pop? now with
  | none => []
  | some (packet, _) =>
    let input := TagPacking.inputOf s.shift packet.item.tag
    if input < s.inputs.length then ofInput input s.stats.responses.length else []

/-- The hazards of passing one request on.  The arbiter asks one input after the other, up to the
first that has a request. -/
def grantHazards (now : Nat) (arbiter : Arbiter) (s : Switch) : List Hazard :=
  ((arbiter.order.takeWhile (!s.requestVisible now ·)).flatMap (ofInput · s.inputs.length))
    ++ match arbiter.winner? (s.requestVisible now) with
      | none => []
      | some input => ofInput input s.stats.grants.length ++ ofDelay s.delay

/-- The hazards of a cycle of a switch. -/
def hazards (now : Nat) (lower : Lookup.Link) (s : Switch) : List Hazard :=
  match s.mode with
  | .bypass => s.passHazards
  | .arbitrated arbiter =>
    let routed := s.route now lower
    s.routeHazards now lower
      ++ (if routed.error?.isNone then routed.state.1.grantHazards now arbiter else [])

end Switch

/-! ## Checkers -/

namespace Checker

/-- The hazards of taking in an answer.  An answer that no trace waits for is an error and not a
hazard. -/
def hazards (now : Nat) (l1 : Lookup.Link) (c : Checker) : List Hazard :=
  match l1.responses.pop? now with
  | none => []
  | some (packet, _) =>
    match c.slots.get? packet.item.tag with
    | none => []
    | some pending =>
      (if pending.remaining = 0 then [.noneRemaining] else [])
        ++ (if pending.remaining - 1 = 0 ∧ c.slots.used = 0 then [.noneUsed] else [])

end Checker

/-! ## Machines -/

namespace Core

/-- The hazards of a cycle of the caches of all cores. -/
def cacheHazards (now : Nat) (cores : List Core) (lowers : List Lookup.Link) : List Hazard :=
  (cores.zip lowers).flatMap fun (core, lower) => core.l1.hazards now lower

/-- The hazards of a cycle of the checkers of all cores, up to the first one that is cut short. -/
def checkerHazards (now : Nat) : List Core → List Hazard
  | [] => []
  | core :: cores =>
    core.checker.hazards now core.l1.port
      ++ (if (core.cycleChecker now).error?.isNone then checkerHazards now cores else [])

end Core

namespace Machine

/-- The hazards of a cycle. -/
def cycleHazards (m : Machine) : List Hazard :=
  let served := m.cycleTable
  let cached := served.cycleL2
  let looked := cached.cycleL1s
  let switched := looked.cycleSwitch
  m.table.hazards m.clock ++ m.l2.hazards m.clock served.table.port
    ++ Core.cacheHazards m.clock m.cores m.switch.inputs
    ++ looked.switch.hazards m.clock looked.l2.port
    ++ (if switched.error?.isNone then Core.checkerHazards m.clock switched.state.cores else [])

/-- The hazards of at most `fuel` cycles, until nothing is left to do. -/
def runHazards (fuel : Nat) (m : Machine) : List Hazard :=
  if m.busy then
    match fuel with
    | 0 => []
    | fuel + 1 =>
      m.cycleHazards ++ (if m.cycle.error?.isNone then runHazards fuel m.cycle.state else [])
  else []

/-- The hazards of a call.  Only cycles have any. -/
def callHazards (call : Call) (m : Machine) : List Hazard :=
  match call with
  | .cycle => m.cycleHazards
  | .run limit => m.runHazards (limit - m.clock)
  | .push _ | .takeCompleted | .takeVerdicts | .reset => []

end Machine

end BoundsCheck
