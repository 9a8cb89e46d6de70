import BoundsCheck.Arbiter
import BoundsCheck.Config.Validation
import BoundsCheck.Lookup
import BoundsCheck.Outcome
import BoundsCheck.Stats.Basic
import BoundsCheck.TagPacking

/-!
# Switches

A switch lets several inputs share one server.  In every cycle it passes at most one request on,
chosen by an arbiter, and delivers at most one response to the input it belongs to.  A switch with
a single input passes everything through with the times it had.

* `Switch.route` — delivers a response.
* `Switch.grant` — passes a request on.
* `Switch.cycle` — one cycle of a switch.
-/

set_option autoImplicit false

namespace BoundsCheck

/-- How a switch treats its inputs. -/
inductive SwitchMode
  /-- A single input is passed through. -/
  | bypass
  /-- Several inputs take turns. -/
  | arbitrated (arbiter : Arbiter)
deriving DecidableEq, Repr

/-- Several inputs in front of one server. -/
structure Switch where
  inputs : List Lookup.Link
  mode : SwitchMode
  delay : UInt64
  /-- By how many bits the tags of requests are shifted. -/
  shift : Nat
  stats : Stats.Switch
deriving DecidableEq, Repr

/-- Why a cycle of a switch was cut short. -/
inductive Switch.Error
  /-- A response names an input that the switch does not have. -/
  | unknownRoute (tag : Tag) (input : Nat)
  /-- The tag of a request leaves no room for the number of its input. -/
  | tagOverflow (tag : Tag) (shift : Nat)
deriving DecidableEq, Repr

/-- The text an error is reported with. -/
def Switch.Error.message : Switch.Error → String
  | .unknownRoute tag input =>
    "response tag " ++ toString tag ++ " routes to unknown input " ++ toString input
  | .tagOverflow tag shift =>
    "request tag " ++ toString tag ++ " does not fit next to " ++ toString shift ++ " input bits"

namespace Switch

/-- The mode of a switch with some inputs. -/
def modeFor (policy : ArbitrationPolicy) (inputs : Nat) : SwitchMode :=
  if inputs = 1 then .bypass else .arbitrated (.ofInputs policy inputs)

/-- A switch with some inputs. -/
def new (inputs : Nat) (config : SwitchConfig) : Except Config.Error Switch := do
  checkInputs inputs
  checkLatency "switch" config.delay
  return {
    inputs := List.replicate inputs {}
    mode := modeFor config.policy inputs
    delay := config.delay
    shift := TagPacking.tagShift inputs
    stats := .ofInputs inputs }

/-- The switch passes everything through. -/
def isBypass (s : Switch) : Bool := s.mode == .bypass

/-- Something is under way on an input. -/
def busy (s : Switch) : Bool := s.inputs.any (·.hasPending)

/-! ## A single input -/

/-- Passes everything through, with the times it had. -/
def passThrough (lower : Lookup.Link) (s : Switch) : Switch × Lookup.Link :=
  match s.inputs with
  | [] => (s, lower)
  | input :: others =>
    let (inputRequests, lowerRequests) := input.requests.moveInto lower.requests
    let (lowerResponses, inputResponses) := lower.responses.moveInto input.responses
    ({ s with
        inputs := ⟨inputRequests, inputResponses⟩ :: others
        stats := (s.stats.grant 0 input.requests.length).respond 0 lower.responses.length },
      ⟨lowerRequests, lowerResponses⟩)

/-! ## Several inputs -/

/-- Delivers a response to the input it belongs to. -/
def deliver (now : Nat) (rsp : Lookup.Response) (s : Switch) : Outcome Error Switch :=
  let input := TagPacking.inputOf s.shift rsp.tag
  match s.inputs[input]? with
  | none => .fail s (.unknownRoute rsp.tag input)
  | some link =>
    .ok { s with
      inputs := s.inputs.set input
        (link.respond { rsp with tag := TagPacking.unstamp s.shift rsp.tag } 1 now)
      stats := s.stats.respond input 1 }

/-- Takes a response from the server, if one is visible, and delivers it. -/
def route (now : Nat) (lower : Lookup.Link) (s : Switch) : Outcome Error (Switch × Lookup.Link) :=
  match lower.responses.pop? now with
  | none => .ok (s, lower)
  | some (packet, rest) =>
    (s.deliver now packet.item).map fun s => (s, { lower with responses := rest })

/-- The input has a request that can be passed on. -/
def requestVisible (now : Nat) (s : Switch) (input : Nat) : Bool :=
  match s.inputs[input]? with
  | none => false
  | some link => !link.requests.isEmpty now

/-- Passes the first request of an input on. -/
def forward (now input : Nat) (lower : Lookup.Link) (s : Switch) :
    Outcome Error (Switch × Lookup.Link) :=
  match s.inputs[input]? with
  | none => .ok (s, lower)
  | some link =>
    match link.requests.pop? now with
    | none => .ok (s, lower)
    | some (packet, rest) =>
      let req := packet.item
      if TagPacking.overflows s.shift req.tag then
        .fail (s, lower) (.tagOverflow req.tag s.shift)
      else
        .ok ({ s with
            inputs := s.inputs.set input { link with requests := rest }
            stats := s.stats.grant input 1 },
          lower.request { req with tag := TagPacking.stamp s.shift input req.tag }
            s.delay.toNat now)

/-- Passes one request on, if the arbiter finds one. -/
def grant (now : Nat) (arbiter : Arbiter) (lower : Lookup.Link) (s : Switch) :
    Outcome Error (Switch × Lookup.Link) :=
  match arbiter.select (s.requestVisible now) with
  | (none, _) => .ok (s, lower)
  | (some input, arbiter) => { s with mode := .arbitrated arbiter }.forward now input lower

/-! ## Cycles -/

/-- One cycle of a switch above a server. -/
def cycle (now : Nat) (lower : Lookup.Link) (s : Switch) : Outcome Error (Switch × Lookup.Link) :=
  match s.mode with
  | .bypass => .ok (s.passThrough lower)
  | .arbitrated arbiter => (s.route now lower).andThen fun (s, lower) => s.grant now arbiter lower

/-- The mode with the arbiter at its first input. -/
def resetMode : SwitchMode → SwitchMode
  | .bypass => .bypass
  | .arbitrated arbiter => .arbitrated arbiter.reset

/-- The switch with nothing under way and nothing counted. -/
def reset (s : Switch) : Switch :=
  { s with
    inputs := s.inputs.map fun _ => {}
    mode := resetMode s.mode
    stats := .ofInputs s.inputs.length }

end Switch

end BoundsCheck
