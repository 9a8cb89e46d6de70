import BoundsCheck.Journal.Component
import BoundsCheck.Machine

/-!
# The events of a machine

The events of a whole machine are those of its components, in the order in which these work.
-/

set_option autoImplicit false

namespace BoundsCheck

open Journal

namespace Core

/-- What the caches of all cores report about a cycle. -/
def cacheEvents (now : Nat) (cores : List Core) (lowers : List Lookup.Link) : List Event :=
  (cores.zip lowers).flatMap fun (core, lower) => core.l1.events now lower

/-- What the checkers of all cores report about a cycle, up to the first one that is cut short. -/
def checkerEvents (now : Nat) : List Core → List Event
  | [] => []
  | core :: cores =>
    core.checker.events now core.l1.port
      ++ (if (core.cycleChecker now).error?.isNone then checkerEvents now cores else [])

/-- What is reported about the trace that the checker is given. -/
def feedEvents (now : Nat) (core : Core) : List Event :=
  ((core.collect now).entering?.map (Event.issue core.checker.id)).toList

end Core

namespace Machine

/-- What is reported when a machine is built. -/
def newEvents (c : Config) : List Event :=
  match new c with
  | .error _ => []
  | .ok m =>
    Resolver.events c
      ++ [.built m.cores.length m.table.entries.length c.resolver.kind m.switch.isBypass]

/-- What a machine reports about a cycle. -/
def cycleEvents (m : Machine) : List Event :=
  let served := m.cycleTable
  let cached := served.cycleL2
  let looked := cached.cycleL1s
  let switched := looked.cycleSwitch
  let checked := switched.andThen cycleCheckers
  [.cycle m.clock] ++ m.table.events m.clock ++ m.l2.events m.clock served.table.port
    ++ Core.cacheEvents m.clock m.cores m.switch.inputs
    ++ looked.switch.events m.clock looked.l2.port
    ++ (if switched.error?.isNone then Core.checkerEvents m.clock switched.state.cores else [])
    ++ (if checked.error?.isNone then checked.state.cores.flatMap (·.feedEvents m.clock) else [])

/-- What a machine reports about at most `fuel` cycles, latest first, put before `past`. -/
def runEventsOnto (past : List Event) (fuel : Nat) (m : Machine) : List Event :=
  if m.busy then
    match fuel with
    | 0 => past
    | fuel + 1 =>
      let past := m.cycleEvents.reverse ++ past
      let next := m.cycle
      match next.error? with
      | some _ => past
      | none => runEventsOnto past fuel next.state
  else .done m.clock :: past

/-- What a machine reports about a run. -/
def runEvents (limit : Nat) (m : Machine) : List Event :=
  (m.runEventsOnto [] (limit - m.clock)).reverse

end Machine

end BoundsCheck
