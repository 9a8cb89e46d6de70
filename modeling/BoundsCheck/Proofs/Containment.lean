import BoundsCheck.Proofs.Fairness

/-!
# A switch goes on when a cycle is cut short

Two things cut a cycle of a switch short.  A response may name an input that the switch does not
have, and a request may have a tag that leaves no room for the number of its input.  The response is
thrown away, so it does no further harm.  The request stays where it is, but by then the response of
the cycle is delivered and the arbiter has chosen.  In round-robin order it goes on behind the input,
and all others are served in their turns.  With priorities it comes back to the same request as long
as no input before it has one, and nothing behind it is ever passed on.

* `Switch.queue`, `Switch.inbox` — what is under way on the links of the inputs.
* `Switch.Exposed.Event` — what happens to a switch above a link that may carry anything.
* `Switch.Exposed.Contained` — what a cycle that is cut short leaves behind, and what comes of it.
* `Switch.Exposed.Turn` — the four ways that a cycle goes.
* `Switch.Exposed.Regular.in_turn` — nobody else waits longer for an input that is blocked.
* `Switch.Exposed.blocked_inputs_are_contained` — all this holds whatever happened before.
-/

set_option autoImplicit false

namespace BoundsCheck.Switch

open Lookup TagPacking

/-! ## Links of the inputs -/

/-- The requests that wait at an input, the next one first. -/
def queue (s : Switch) (input : Nat) : List (Packet Request) :=
  s.inputs[input]?.elim [] (·.requests.packets)

/-- The responses that wait at an input, the next one first. -/
def inbox (s : Switch) (input : Nat) : List (Packet Response) :=
  s.inputs[input]?.elim [] (·.responses.packets)

/-- The next request of an input is this one, and it is visible. -/
def Offers (now input : Nat) (packet : Packet Request) (s : Switch) : Prop :=
  (s.queue input).head? = some packet ∧ packet.ready ≤ now

/-- What is read off the elements of a list, after one of them was changed. -/
theorem elim_getElem?_set {α β : Type} {l : List α} {i : Nat} {old : α} (h : l[i]? = some old)
    (new : α) (d : β) (f : α → β) :
    (fun j => (l.set i new)[j]?.elim d f) = Function.update (fun j => l[j]?.elim d f) i (f new) := by
  funext j
  rw [List.getElem?_set]
  by_cases hj : i = j
  · subst hj
    rw [if_pos rfl, if_pos (List.getElem?_eq_some_iff.mp h).1, Function.update_self]
    rfl
  · rw [if_neg hj, Function.update_of_ne (Ne.symm hj)]

variable {s t : Switch} {input now : Nat} {old link : Lookup.Link} {packet : Packet Request}

theorem queue_of_set (hold : s.inputs[input]? = some old)
    (hset : t.inputs = s.inputs.set input link) :
    t.queue = Function.update s.queue input link.requests.packets := by
  have helim := elim_getElem?_set hold link [] fun link => link.requests.packets
  rw [← hset] at helim
  exact helim

theorem inbox_of_set (hold : s.inputs[input]? = some old)
    (hset : t.inputs = s.inputs.set input link) :
    t.inbox = Function.update s.inbox input link.responses.packets := by
  have helim := elim_getElem?_set hold link [] fun link => link.responses.packets
  rw [← hset] at helim
  exact helim

theorem queue_eq (hlink : s.inputs[input]? = some link) :
    s.queue input = link.requests.packets := by
  rw [queue, hlink]
  rfl

theorem inbox_eq (hlink : s.inputs[input]? = some link) :
    s.inbox input = link.responses.packets := by
  rw [inbox, hlink]
  rfl

/-- An input has at most one request that is the next. -/
theorem Offers.unique {later : Nat} {other : Packet Request} (h : s.Offers now input packet)
    (h' : s.Offers later input other) : packet = other :=
  Option.some.inj (h.1.symm.trans h'.1)

/-- A request that is visible remains so. -/
theorem Offers.mono {later : Nat} (h : s.Offers now input packet) (hlater : now ≤ later) :
    s.Offers later input packet :=
  ⟨h.1, h.2.trans hlater⟩

/-- Only an input of the switch has a request. -/
theorem Offers.lt (h : s.Offers now input packet) : input < s.inputs.length := by
  rcases hlink : s.inputs[input]? with _ | link
  · have hhead := h.1
    rw [queue, hlink] at hhead
    cases hhead
  · exact (List.getElem?_eq_some_iff.mp hlink).1

theorem requestVisible_iff_offers :
    s.requestVisible now input = true ↔ ∃ packet, s.Offers now input packet := by
  rw [requestVisible_iff]
  constructor
  · rintro ⟨link, packet, rest, hlink, hpop⟩
    obtain ⟨hpackets, hready⟩ := Port.pop?_eq_some_iff.mp hpop
    exact ⟨packet, by rw [queue_eq hlink, hpackets]; rfl, hready⟩
  · rintro ⟨packet, hoffers⟩
    have hlink := List.getElem?_eq_getElem hoffers.lt
    obtain ⟨hhead, hready⟩ := hoffers
    rw [queue_eq hlink, List.head?_eq_some_iff] at hhead
    obtain ⟨rest, hpackets⟩ := hhead
    exact ⟨_, packet, ⟨rest⟩, hlink, Port.pop?_eq_some_iff.mpr ⟨hpackets, hready⟩⟩

/-- What an input offers depends on its queue alone. -/
theorem requestVisible_congr (hqueue : t.queue = s.queue) (now : Nat) :
    t.requestVisible now = s.requestVisible now := by
  funext input
  rw [Bool.eq_iff_iff, requestVisible_iff_offers, requestVisible_iff_offers]
  simp only [Offers, hqueue]

namespace Exposed

/-! ## Switches above any link -/

/-- What happens to a switch. -/
inductive Event
  /-- A request is sent to an input. -/
  | ask (input : Nat) (req : Request) (delay now : Nat)
  /-- A response is taken from an input, if one is visible. -/
  | collect (input now : Nat)
  /-- The switch works, above a link on which anything may be under way. -/
  | cycle (now : Nat) (lower : Lookup.Link)
  /-- Something else is done to the link of an input. -/
  | replace (input : Nat) (link : Lookup.Link)
  /-- The switch is reset. -/
  | reset
deriving DecidableEq, Repr

/-- The switch after an event. -/
def step (s : Switch) : Event → Switch
  | .ask input req delay now =>
    match s.inputs[input]? with
    | none => s
    | some link => { s with inputs := s.inputs.set input (link.request req delay now) }
  | .collect input now =>
    match s.inputs[input]? with
    | none => s
    | some link =>
      match link.responses.pop? now with
      | none => s
      | some (_, rest) => { s with inputs := s.inputs.set input { link with responses := rest } }
  | .cycle now lower => (s.cycle now lower).state.1
  | .replace input link => { s with inputs := s.inputs.set input link }
  | .reset => s.reset

/-- The switch after several events. -/
def after (events : List Event) (s : Switch) : Switch := events.foldl step s

/-- A request is sent to an input, or a response is taken from one. -/
def Event.exchanges : Event → Bool
  | .ask _ _ _ _ | .collect _ _ => true
  | .cycle _ _ | .replace _ _ | .reset => false

/-- The switch works in this cycle or a later one, or exchanges something with an input. -/
def Event.since (now : Nat) : Event → Bool
  | .cycle later _ => now ≤ later
  | event => event.exchanges

/-- The switch works, and no response goes astray. -/
def takesTurn (s : Switch) : Event → Bool
  | .cycle now lower =>
    match (s.cycle now lower).error? with
    | some (.unknownRoute _ _) => false
    | _ => true
  | _ => false

/-- How often the switch works without a response going astray. -/
def turns : List Event → Switch → Nat
  | [], _ => 0
  | event :: rest, s => (takesTurn s event).toNat + turns rest (step s event)

/-- The response with the tag is visible, but the bits of its tag name no input. -/
def Astray (inputs now : Nat) (lower : Lookup.Link) (tag : Tag) : Prop :=
  ∃ packet rest, lower.responses.pop? now = some (packet, rest) ∧ packet.item.tag = tag ∧
    inputs ≤ tag.toNat % 2 ^ tagShift inputs

/-- The tag of the request leaves room for the number of its input. -/
def Fits (inputs : Nat) (req : Request) : Prop := req.tag.toNat < 2 ^ (32 - tagShift inputs)

/-- The response that was visible below, if there was one, has come to the input that its tag
names. -/
structure Delivers (now : Nat) (lower : Lookup.Link) (s : Switch) (next : Switch × Lookup.Link) :
    Prop where
  silent : lower.responses.pop? now = none →
    next.2.responses = lower.responses ∧ next.1.inbox = s.inbox ∧
      next.1.stats.responses = s.stats.responses
  heard : ∀ packet rest, lower.responses.pop? now = some (packet, rest) →
    next.2.responses = rest ∧
      next.1.inbox = Function.update s.inbox (inputOf s.shift packet.item.tag)
        (s.inbox (inputOf s.shift packet.item.tag)
          ++ [⟨{ packet.item with tag := unstamp s.shift packet.item.tag }, now, now + 1⟩]) ∧
      next.1.stats.responses
        = s.stats.responses.modify (inputOf s.shift packet.item.tag) (· + 1)

/-- A cycle passes this request of an input on. -/
structure Passes (now : Nat) (lower : Lookup.Link) (input : Nat) (packet : Packet Request)
    (s : Switch) : Prop where
  /-- The cycle goes through. -/
  through : (s.cycle now lower).error? = none
  /-- The request leaves the queue of its input, -/
  queue : ∃ rest, s.queue input = packet :: rest ∧
    (s.cycle now lower).state.1.queue = Function.update s.queue input rest
  /-- is sent on with the number of the input in its tag, -/
  below : (s.cycle now lower).state.2.requests
    = lower.requests.send (stamped s.shift (input, packet.item)) s.delay.toNat now
  /-- and is counted. -/
  counted : (s.cycle now lower).state.1.stats.grants = s.stats.grants.modify input (· + 1)

/-- The next request of an input is in the way of all that are not before it. -/
structure Blocks (now input : Nat) (packet : Packet Request) (s : Switch) : Prop where
  /-- The request is still there. -/
  offers : s.Offers now input packet
  /-- Unless an input before it has a request, no cycle goes through. -/
  fails : ∀ later lower, now ≤ later → (∀ other < input, s.requestVisible later other = false) →
    (s.cycle later lower).error? ≠ none
  /-- A cycle that goes through passes on a request of an input before it. -/
  passes : ∀ later lower, now ≤ later → (s.cycle later lower).error? = none →
    ∃ other < input, ∃ packet, Passes later lower other packet s

/-- What the cycles of a switch between some inputs come to. -/
structure Contained (policy : ArbitrationPolicy) (inputs : Nat) (arbiter : Arbiter) (now : Nat)
    (lower : Lookup.Link) (s : Switch) : Prop where
  /-- A route is unknown exactly if a response goes astray. -/
  unknownRoute : ∀ tag input, (s.cycle now lower).error? = some (.unknownRoute tag input) ↔
    Astray inputs now lower tag ∧ tag.toNat % 2 ^ tagShift inputs = input
  /-- This response is then gone, and nothing else happens. -/
  gone : ∀ tag packet rest, Astray inputs now lower tag →
    lower.responses.pop? now = some (packet, rest) →
      (s.cycle now lower).state = (s, { lower with responses := rest })
  /-- Any other response is delivered, whether the cycle goes through or not. -/
  delivers : (∀ tag, ¬ Astray inputs now lower tag) → Delivers now lower s (s.cycle now lower).state
  /-- Otherwise a tag overflows exactly if it is that of the request which the arbiter chooses, and
  does not fit. -/
  tagOverflow : ∀ tag shift, (s.cycle now lower).error? = some (.tagOverflow tag shift) ↔
    (∀ other, ¬ Astray inputs now lower other) ∧ shift = tagShift inputs ∧
      ∃ input packet, (arbiter.select (s.requestVisible now)).1 = some input ∧
        s.Offers now input packet ∧ packet.item.tag = tag ∧ ¬ Fits inputs packet.item
  /-- No request moves then, and in round-robin order the next turn is that of the next input. -/
  kept : ∀ tag shift input, (s.cycle now lower).error? = some (.tagOverflow tag shift) →
    (arbiter.select (s.requestVisible now)).1 = some input →
      (s.cycle now lower).state.1.queue = s.queue ∧
      (s.cycle now lower).state.2.requests = lower.requests ∧
      (s.cycle now lower).state.1.stats.grants = s.stats.grants ∧
      (s.cycle now lower).state.1.mode = .arbitrated { arbiter with
        cursor := if policy = .roundRobin then (input + 1) % inputs else arbiter.cursor }
  /-- In round-robin order a request that fits is passed on within as many turns as there are
  inputs. -/
  in_turn : policy = .roundRobin → ∀ input packet, s.Offers now input packet →
    Fits inputs packet.item → ∀ further : List Event, (∀ event ∈ further, event.since now = true) →
      inputs ≤ turns further s →
        ∃ before later link rest, further = before ++ .cycle later link :: rest ∧
          turns before s < inputs ∧ Passes later link input packet (after before s)
  /-- With priorities a request that does not fit remains in the way of all behind it. -/
  in_the_way : policy = .priority → ∀ tag shift,
    (s.cycle now lower).error? = some (.tagOverflow tag shift) →
      ∃ input packet, (arbiter.select (s.requestVisible now)).1 = some input ∧
        s.Offers now input packet ∧
        ∀ further : List Event, (∀ event ∈ further, event.since now = true) →
          Blocks now input packet (after further (s.cycle now lower).state.1)

/-! ## How a cycle goes -/

/-- The switch and the link below when the response that is visible, if there is one, has been
delivered. -/
inductive Relieved (now : Nat) (lower : Lookup.Link) (s : Switch) : Switch × Lookup.Link → Prop
  | silent (hpop : lower.responses.pop? now = none) : Relieved now lower s (s, lower)
  | heard {packet : Packet Response} {rest : Port Response} {link : Lookup.Link}
      (hpop : lower.responses.pop? now = some (packet, rest))
      (hlink : s.inputs[inputOf s.shift packet.item.tag]? = some link) :
      Relieved now lower s (s.delivered now link packet.item, { lower with responses := rest })

/-- The four ways that a cycle of a switch between several inputs goes. -/
inductive Turn (inputs : Nat) (arbiter : Arbiter) (now : Nat) (lower : Lookup.Link) (s : Switch) :
    Outcome Error (Switch × Lookup.Link) → Prop
  /-- A response goes astray. -/
  | astray {packet : Packet Response} {rest : Port Response}
      (hpop : lower.responses.pop? now = some (packet, rest))
      (hinput : inputs ≤ packet.item.tag.toNat % 2 ^ tagShift inputs) :
      Turn inputs arbiter now lower s (.fail (s, { lower with responses := rest })
        (.unknownRoute packet.item.tag (packet.item.tag.toNat % 2 ^ tagShift inputs)))
  /-- No input has a request. -/
  | quiet {first : Switch × Lookup.Link} (hfirst : Relieved now lower s first)
      (hwinner : arbiter.winner? (s.requestVisible now) = none) :
      Turn inputs arbiter now lower s (.ok first)
  /-- A request is passed on. -/
  | passed {first : Switch × Lookup.Link} {input : Nat} {link : Lookup.Link}
      {packet : Packet Request} {rest : Port Request} (hfirst : Relieved now lower s first)
      (hwinner : arbiter.winner? (s.requestVisible now) = some input)
      (hlink : first.1.inputs[input]? = some link)
      (hpop : link.requests.pop? now = some (packet, rest)) (hfits : Fits inputs packet.item) :
      Turn inputs arbiter now lower s
        (.ok (first.1.granted (arbiter.advance input) input link rest,
          first.2.request (stamped s.shift (input, packet.item)) s.delay.toNat now))
  /-- The tag of a request leaves no room. -/
  | blocked {first : Switch × Lookup.Link} {input : Nat} {packet : Packet Request}
      (hfirst : Relieved now lower s first)
      (hwinner : arbiter.winner? (s.requestVisible now) = some input)
      (hoffers : s.Offers now input packet) (hfits : ¬ Fits inputs packet.item) :
      Turn inputs arbiter now lower s
        (.fail ({ first.1 with mode := .arbitrated (arbiter.advance input) }, first.2)
          (.tagOverflow packet.item.tag (tagShift inputs)))

variable {inputs : Nat} {policy : ArbitrationPolicy} {arbiter : Arbiter} {lower : Lookup.Link}
  {first : Switch × Lookup.Link}

/-- Only the responses have changed. -/
theorem Relieved.unmoved (h : Relieved now lower s first) :
    first.1.queue = s.queue ∧ first.2.requests = lower.requests ∧
      first.1.stats.grants = s.stats.grants := by
  cases h with
  | silent _ => exact ⟨rfl, rfl, rfl⟩
  | heard _ hlink =>
    refine ⟨?_, rfl, rfl⟩
    rw [queue_of_set hlink rfl, Function.update_eq_self_iff, queue_eq hlink]
    rfl

theorem Relieved.shape (h : Relieved now lower s first) (hs : s.Shape inputs) :
    first.1.Shape inputs := by
  cases h with
  | silent _ => exact hs
  | heard _ _ => exact hs.delivered now _ _

theorem Relieved.mode (h : Relieved now lower s first) : first.1.mode = s.mode := by
  cases h <;> rfl

theorem Relieved.delivers (h : Relieved now lower s first) : Delivers now lower s first := by
  cases h with
  | silent hpop =>
    refine ⟨fun _ => ⟨rfl, rfl, rfl⟩, fun _ _ hpop' => ?_⟩
    cases hpop.symm.trans hpop'
  | heard hpop hlink =>
    refine ⟨fun hpop' => ?_, fun packet rest hpop' => ?_⟩
    · cases hpop.symm.trans hpop'
    cases hpop.symm.trans hpop'
    refine ⟨rfl, ?_, rfl⟩
    rw [inbox_of_set hlink rfl, inbox_eq hlink]
    rfl

/-- The responses are what counts. -/
theorem Delivers.congr {next other : Switch × Lookup.Link} (h : Delivers now lower s next)
    (hresponses : other.2.responses = next.2.responses) (hinbox : other.1.inbox = next.1.inbox)
    (hstats : other.1.stats.responses = next.1.stats.responses) :
    Delivers now lower s other := by
  constructor
  · rw [hresponses, hinbox, hstats]
    exact h.silent
  · rw [hresponses, hinbox, hstats]
    exact h.heard

/-- A response is thrown away if its tag names no input, and otherwise it is delivered. -/
theorem route_or (hs : s.Shape inputs) (now : Nat) (lower : Lookup.Link) :
    (∃ packet rest, lower.responses.pop? now = some (packet, rest) ∧
        inputs ≤ packet.item.tag.toNat % 2 ^ tagShift inputs ∧
        s.route now lower = .fail (s, { lower with responses := rest })
          (.unknownRoute packet.item.tag (packet.item.tag.toNat % 2 ^ tagShift inputs))) ∨
      ∃ first, Relieved now lower s first ∧ s.route now lower = .ok first := by
  rcases hpop : lower.responses.pop? now with _ | ⟨packet, rest⟩
  · exact .inr ⟨(s, lower), .silent hpop, by rw [route, hpop]⟩
  · have hinput : inputOf s.shift packet.item.tag = packet.item.tag.toNat % 2 ^ tagShift inputs := by
      rw [inputOf_eq_mod hs.shift_lt, hs.shift]
    rcases hlink : s.inputs[inputOf s.shift packet.item.tag]? with _ | link
    · have hle := List.getElem?_eq_none_iff.mp hlink
      rw [hinput, hs.links] at hle
      refine .inl ⟨packet, rest, rfl, hle, ?_⟩
      rw [← hinput]
      simp only [route, hpop, deliver, hlink]
      rfl
    · refine .inr ⟨_, .heard hpop hlink, ?_⟩
      simp only [route, hpop, deliver, hlink]
      rfl

/-! ## Switches in use -/

/-- What always holds of a switch between some inputs. -/
structure Regular (policy : ArbitrationPolicy) (inputs : Nat) (arbiter : Arbiter) (s : Switch) :
    Prop where
  shape : s.Shape inputs
  mode : s.mode = .arbitrated arbiter
  sound : arbiter.Sound policy inputs

/-- The test for overflow is whether the tag fits. -/
theorem overflows_iff_not_fits (hs : s.Shape inputs) {req : Request} :
    overflows s.shift req.tag = true ↔ ¬ Fits inputs req := by
  have hshift := hs.shift_lt
  have hpow : 2 ^ 32 = 2 ^ (32 - s.shift) * 2 ^ s.shift := by
    rw [← Nat.pow_add, Nat.sub_add_cancel hshift.le]
  rw [overflows_iff hshift.le, Fits, ← hs.shift, Nat.not_lt, hpow,
    Nat.mul_le_mul_right_iff (Nat.two_pow_pos _)]

/-- **Every cycle goes one of the four ways.** -/
theorem Regular.turn (h : Regular policy inputs arbiter s) (now : Nat) (lower : Lookup.Link) :
    Turn inputs arbiter now lower s (s.cycle now lower) := by
  obtain ⟨packet, rest, hpop, hinput, heq⟩ | ⟨first, hfirst, heq⟩ := route_or h.shape now lower
  · have hcycle : s.cycle now lower = s.route now lower := by
      rw [Switch.cycle, h.mode]
      simp only [heq]
      rfl
    rw [hcycle, heq]
    exact .astray hpop hinput
  · rw [cycle_of_route h.mode heq]
    have hshape := hfirst.shape h.shape
    have hvisible := requestVisible_congr hfirst.unmoved.1 now
    have hshift : first.1.shift = s.shift := hshape.shift.trans h.shape.shift.symm
    have hdelay : first.1.delay = s.delay := by cases hfirst <;> rfl
    rcases hwinner : arbiter.winner? (s.requestVisible now) with _ | input
    · have hgrant : first.1.grant now arbiter first.2 = .ok first := by
        rw [grant, Arbiter.select, hvisible, hwinner]
      rw [hgrant]
      exact .quiet hfirst hwinner
    · have hready : s.requestVisible now input = true := List.find?_some hwinner
      rw [← hvisible] at hready
      obtain ⟨link, packet, rest, hlink, hpop⟩ := requestVisible_iff.mp hready
      by_cases hfits : Fits inputs packet.item
      · have hroom : overflows first.1.shift packet.item.tag = false := by
          rw [← Bool.not_eq_true, overflows_iff_not_fits hshape, not_not]
          exact hfits
        have hgrant : first.1.grant now arbiter first.2
            = .ok (first.1.granted (arbiter.advance input) input link rest,
              first.2.request (stamped s.shift (input, packet.item)) s.delay.toNat now) := by
          simp only [grant, Arbiter.select, hvisible, hwinner, forward, hlink, hpop, hroom,
            Bool.false_eq_true, if_false]
          rw [← hshift, ← hdelay]
          rfl
        rw [hgrant]
        exact .passed hfirst hwinner hlink hpop hfits
      · have hroom := (overflows_iff_not_fits hshape).mpr hfits
        have hgrant : first.1.grant now arbiter first.2
            = .fail ({ first.1 with mode := .arbitrated (arbiter.advance input) }, first.2)
              (.tagOverflow packet.item.tag (tagShift inputs)) := by
          simp only [grant, Arbiter.select, hvisible, hwinner, forward, hlink, hpop, hroom, if_true]
          rw [hshape.shift]
        obtain ⟨hpackets, hvisible⟩ := Port.pop?_eq_some_iff.mp hpop
        have hoffers : s.Offers now input packet := by
          refine ⟨?_, hvisible⟩
          rw [← hfirst.unmoved.1, queue_eq hlink, hpackets]
          rfl
        rw [hgrant]
        exact .blocked hfirst hwinner hoffers hfits

theorem Regular.cycle (h : Regular policy inputs arbiter s) (now : Nat) (lower : Lookup.Link) :
    ∃ next, Regular policy inputs next (s.cycle now lower).state.1 := by
  have hshape := h.shape.cycle now lower
  have hturn := h.turn now lower
  generalize s.cycle now lower = outcome at hshape hturn
  cases hturn with
  | astray _ _ => exact ⟨arbiter, h⟩
  | quiet hfirst _ => exact ⟨arbiter, hshape, hfirst.mode.trans h.mode, h.sound⟩
  | passed _ _ _ _ _ => exact ⟨_, hshape, rfl, h.sound.advance _⟩
  | blocked _ _ _ _ => exact ⟨_, hshape, rfl, h.sound.advance _⟩

theorem Regular.withLink (h : Regular policy inputs arbiter s) (input : Nat) (link : Lookup.Link) :
    Regular policy inputs arbiter { s with inputs := s.inputs.set input link } :=
  ⟨h.shape.withLink input link, h.mode, h.sound⟩

/-- What is exchanged with an input does not concern the arbiter. -/
theorem Regular.step_of_exchanges (h : Regular policy inputs arbiter s) {event : Event}
    (hevent : event.exchanges = true) : Regular policy inputs arbiter (step s event) := by
  cases event with
  | ask input req delay now =>
    rw [Exposed.step]
    split
    · exact h
    · exact h.withLink input _
  | collect input now =>
    rw [Exposed.step]
    split
    · exact h
    · split
      · exact h
      · exact h.withLink input _
  | cycle _ _ => cases hevent
  | replace _ _ => cases hevent
  | reset => cases hevent

theorem Regular.step (h : Regular policy inputs arbiter s) (event : Event) :
    ∃ next, Regular policy inputs next (step s event) := by
  cases event with
  | ask _ _ _ _ => exact ⟨arbiter, h.step_of_exchanges rfl⟩
  | collect _ _ => exact ⟨arbiter, h.step_of_exchanges rfl⟩
  | cycle now lower => exact h.cycle now lower
  | replace input link => exact ⟨arbiter, h.withLink input link⟩
  | reset =>
    refine ⟨arbiter.reset, ?_, ?_, h.sound.call .reset⟩
    · exact h.shape.reset
    · show resetMode s.mode = _
      rw [h.mode]
      rfl

theorem Regular.after (h : Regular policy inputs arbiter s) (events : List Event) :
    ∃ next, Regular policy inputs next (after events s) := by
  induction events generalizing arbiter s with
  | nil => exact ⟨arbiter, h⟩
  | cons event events ih =>
    obtain ⟨next, hnext⟩ := h.step event
    exact ih hnext

/-! ## What a cycle comes to -/

variable {outcome : Outcome Error (Switch × Lookup.Link)} {rest : Port Request}

/-- A response that is delivered does not go astray. -/
theorem Relieved.not_astray (h : Relieved now lower s first) (hs : s.Shape inputs) (tag : Tag) :
    ¬ Astray inputs now lower tag := by
  rintro ⟨packet, rest, hpop, rfl, hle⟩
  cases h with
  | silent hsilent => cases hsilent.symm.trans hpop
  | heard hheard hlink =>
    cases hheard.symm.trans hpop
    have hlt := (List.getElem?_eq_some_iff.mp hlink).1
    rw [inputOf_eq_mod hs.shift_lt, hs.shift, hs.links] at hlt
    omega

/-- The request taken off a link is the next one of its input. -/
theorem Relieved.queue_eq_cons (h : Relieved now lower s first)
    (hlink : first.1.inputs[input]? = some link)
    (hpop : link.requests.pop? now = some (packet, rest)) :
    s.queue input = packet :: rest.packets ∧ packet.ready ≤ now := by
  obtain ⟨hpackets, hready⟩ := Port.pop?_eq_some_iff.mp hpop
  rw [← h.unmoved.1, queue_eq hlink]
  exact ⟨hpackets, hready⟩

theorem Relieved.offers (h : Relieved now lower s first)
    (hlink : first.1.inputs[input]? = some link)
    (hpop : link.requests.pop? now = some (packet, rest)) : s.Offers now input packet := by
  obtain ⟨hqueue, hready⟩ := h.queue_eq_cons hlink hpop
  exact ⟨by rw [hqueue]; rfl, hready⟩

theorem Turn.unknownRoute_iff (h : Turn inputs arbiter now lower s outcome) (hs : s.Shape inputs)
    (tag : Tag) (input : Nat) : outcome.error? = some (.unknownRoute tag input) ↔
      Astray inputs now lower tag ∧ tag.toNat % 2 ^ tagShift inputs = input := by
  cases h with
  | astray hpop hinput =>
    constructor
    · intro heq
      cases heq
      exact ⟨⟨_, _, hpop, rfl, hinput⟩, rfl⟩
    · rintro ⟨⟨packet, rest, hpop', rfl, -⟩, rfl⟩
      cases hpop.symm.trans hpop'
      rfl
  | quiet hfirst _ =>
    exact iff_of_false (fun heq => nomatch heq) fun hastray => hfirst.not_astray hs tag hastray.1
  | passed hfirst _ _ _ _ =>
    exact iff_of_false (fun heq => nomatch heq) fun hastray => hfirst.not_astray hs tag hastray.1
  | blocked hfirst _ _ _ =>
    exact iff_of_false (fun heq => nomatch heq) fun hastray => hfirst.not_astray hs tag hastray.1

theorem Turn.gone (h : Turn inputs arbiter now lower s outcome) (hs : s.Shape inputs) {tag : Tag}
    {packet : Packet Response} {rest : Port Response} (hastray : Astray inputs now lower tag)
    (hpop : lower.responses.pop? now = some (packet, rest)) :
    outcome.state = (s, { lower with responses := rest }) := by
  cases h with
  | astray hpop' _ =>
    cases hpop.symm.trans hpop'
    rfl
  | quiet hfirst _ => exact absurd hastray (hfirst.not_astray hs tag)
  | passed hfirst _ _ _ _ => exact absurd hastray (hfirst.not_astray hs tag)
  | blocked hfirst _ _ _ => exact absurd hastray (hfirst.not_astray hs tag)

/-- A request that is passed on takes nothing from the responses. -/
theorem Turn.delivers (h : Turn inputs arbiter now lower s outcome)
    (hstraight : ∀ tag, ¬ Astray inputs now lower tag) :
    Delivers now lower s outcome.state := by
  cases h with
  | astray hpop hinput => exact absurd ⟨_, _, hpop, rfl, hinput⟩ (hstraight _)
  | quiet hfirst _ => exact hfirst.delivers
  | passed hfirst _ hlink _ _ =>
    refine hfirst.delivers.congr rfl ?_ rfl
    rw [inbox_of_set hlink rfl, Function.update_eq_self_iff, inbox_eq hlink]
  | blocked hfirst _ _ _ => exact hfirst.delivers.congr rfl rfl rfl

theorem Turn.tagOverflow_iff (h : Turn inputs arbiter now lower s outcome) (hs : s.Shape inputs)
    (tag : Tag) (shift : Nat) : outcome.error? = some (.tagOverflow tag shift) ↔
      (∀ other, ¬ Astray inputs now lower other) ∧ shift = tagShift inputs ∧
        ∃ input packet, (arbiter.select (s.requestVisible now)).1 = some input ∧
          s.Offers now input packet ∧ packet.item.tag = tag ∧ ¬ Fits inputs packet.item := by
  simp only [Arbiter.select_fst]
  cases h with
  | astray hpop hinput =>
    exact iff_of_false (fun heq => nomatch heq)
      fun hall => hall.1 _ ⟨_, _, hpop, rfl, hinput⟩
  | quiet hfirst hnone =>
    refine iff_of_false (fun heq => nomatch heq) ?_
    rintro ⟨-, -, input, packet, hwinner, -⟩
    cases hnone.symm.trans hwinner
  | passed hfirst hwinner hlink hpop hfits =>
    refine iff_of_false (fun heq => nomatch heq) ?_
    rintro ⟨-, -, input, packet, hwinner', hoffers, -, hbig⟩
    cases hwinner.symm.trans hwinner'
    cases (hfirst.offers hlink hpop).unique hoffers
    exact hbig hfits
  | blocked hfirst hwinner hoffers hbig =>
    constructor
    · intro heq
      cases heq
      exact ⟨hfirst.not_astray hs, rfl, _, _, hwinner, hoffers, rfl, hbig⟩
    · rintro ⟨-, rfl, input, packet, hwinner', hoffers', rfl, -⟩
      cases hwinner.symm.trans hwinner'
      cases hoffers.unique hoffers'
      rfl

theorem Turn.kept (h : Turn inputs arbiter now lower s outcome)
    (hsound : arbiter.Sound policy inputs) {tag : Tag} {shift : Nat}
    (herror : outcome.error? = some (.tagOverflow tag shift))
    (hwinner : (arbiter.select (s.requestVisible now)).1 = some input) :
    outcome.state.1.queue = s.queue ∧ outcome.state.2.requests = lower.requests ∧
      outcome.state.1.stats.grants = s.stats.grants ∧
      outcome.state.1.mode = .arbitrated { arbiter with
        cursor := if policy = .roundRobin then (input + 1) % inputs else arbiter.cursor } := by
  rw [Arbiter.select_fst] at hwinner
  cases h with
  | astray _ _ => cases herror
  | quiet _ _ => cases herror
  | passed _ _ _ _ _ => cases herror
  | blocked hfirst hwinner' _ _ =>
    cases hwinner.symm.trans hwinner'
    obtain ⟨hqueue, hrequests, hgrants⟩ := hfirst.unmoved
    exact ⟨hqueue, hrequests, hgrants, congrArg SwitchMode.arbitrated (hsound.advance_eq input)⟩

theorem queue_granted (hlink : s.inputs[input]? = some link) (next : Arbiter) (rest : Port Request) :
    (s.granted next input link rest).queue = Function.update s.queue input rest.packets := by
  have hset : (s.granted next input link rest).inputs
      = s.inputs.set input { link with requests := rest } := rfl
  exact queue_of_set hlink hset

/-- What the switch does when it passes a request on. -/
theorem passes_of_eq {next : Arbiter} (hfirst : Relieved now lower s first)
    (hlink : first.1.inputs[input]? = some link)
    (hpop : link.requests.pop? now = some (packet, rest))
    (heq : s.cycle now lower = .ok (first.1.granted next input link rest,
      first.2.request (stamped s.shift (input, packet.item)) s.delay.toNat now)) :
    Passes now lower input packet s := by
  obtain ⟨hqueue, hrequests, hgrants⟩ := hfirst.unmoved
  obtain ⟨hcons, -⟩ := hfirst.queue_eq_cons hlink hpop
  refine ⟨by rw [heq]; rfl, ⟨rest.packets, hcons, ?_⟩, ?_, ?_⟩
  · rw [heq, ← hqueue]
    exact queue_granted hlink next rest
  · rw [heq, ← hrequests]
    rfl
  · rw [heq, ← hgrants]
    rfl

/-- All requests wait where they are, or the arbiter has chosen one that is passed on. -/
theorem Regular.queue_cycle (h : Regular policy inputs arbiter s) (now : Nat)
    (lower : Lookup.Link) : (s.cycle now lower).state.1.queue = s.queue ∨
      ∃ input packet, arbiter.winner? (s.requestVisible now) = some input ∧
        Fits inputs packet.item ∧ Passes now lower input packet s := by
  have hturn := h.turn now lower
  generalize heq : s.cycle now lower = outcome at hturn
  cases hturn with
  | astray _ _ => exact .inl rfl
  | quiet hfirst _ => exact .inl hfirst.unmoved.1
  | passed hfirst hwinner hlink hpop hfits =>
    exact .inr ⟨_, _, hwinner, hfits, passes_of_eq hfirst hlink hpop heq⟩
  | blocked hfirst _ _ _ => exact .inl hfirst.unmoved.1

/-! ## Requests that wait -/

variable {event : Event}

theorem since_cases (h : event.since now = true) :
    (∃ later lower, event = .cycle later lower ∧ now ≤ later) ∨ event.exchanges = true := by
  cases event with
  | cycle later lower => exact .inl ⟨later, lower, rfl, by simpa [Event.since] using h⟩
  | ask _ _ _ _ => exact .inr h
  | collect _ _ => exact .inr h
  | replace _ _ => exact .inr h
  | reset => exact .inr h

/-- Whatever is exchanged with the inputs, the next request of each remains the next. -/
theorem offers_step_of_exchanges (h : s.Offers now input packet)
    (hevent : event.exchanges = true) : (Exposed.step s event).Offers now input packet := by
  refine ⟨?_, h.2⟩
  cases event with
  | ask other req delay sent =>
    rw [Exposed.step]
    split
    · exact h.1
    · rename_i link hlink
      have hset := queue_of_set (t := { s with
        inputs := s.inputs.set other (link.request req delay sent) }) hlink rfl
      rw [hset]
      by_cases hother : input = other
      · subst hother
        have hhead := h.1
        rw [queue_eq hlink] at hhead
        rw [Function.update_self]
        show (link.requests.packets ++ _).head? = _
        rw [List.head?_append, hhead]
        rfl
      · rw [Function.update_of_ne hother]
        exact h.1
  | collect other sent =>
    rw [Exposed.step]
    split
    · exact h.1
    · rename_i link hlink
      split
      · exact h.1
      · rename_i taken rest hpop
        have hset := queue_of_set (t := { s with
          inputs := s.inputs.set other { link with responses := rest } }) hlink rfl
        rw [hset, ← queue_eq hlink, Function.update_eq_self]
        exact h.1
  | cycle _ _ => cases hevent
  | replace _ _ => cases hevent
  | reset => cases hevent

/-- A request that is next remains next until it is passed on. -/
theorem Regular.offers_cycle (h : Regular policy inputs arbiter s)
    (hoffers : s.Offers now input packet) (later : Nat) (lower : Lookup.Link) :
    (s.cycle later lower).state.1.Offers now input packet ∨
      (Fits inputs packet.item ∧ Passes later lower input packet s) := by
  obtain hqueue | ⟨other, next, -, hfits, hpasses⟩ := h.queue_cycle later lower
  · exact .inl ⟨by rw [hqueue]; exact hoffers.1, hoffers.2⟩
  · obtain ⟨rest, hcons, hqueue⟩ := hpasses.queue
    by_cases hother : input = other
    · subst hother
      have hhead := hoffers.1
      rw [hcons] at hhead
      cases hhead
      exact .inr ⟨hfits, hpasses⟩
    · exact .inl ⟨by rw [hqueue, Function.update_of_ne hother]; exact hoffers.1, hoffers.2⟩

/-- A request that is next and does not fit remains next. -/
theorem Regular.offers_after (h : Regular policy inputs arbiter s)
    (hoffers : s.Offers now input packet) (hbig : ¬ Fits inputs packet.item) {events : List Event}
    (hsince : ∀ event ∈ events, event.since now = true) :
    (Exposed.after events s).Offers now input packet := by
  induction events generalizing arbiter s with
  | nil => exact hoffers
  | cons event rest ih =>
    obtain ⟨next, hnext⟩ := h.step event
    refine ih hnext ?_ fun other hother => hsince other (List.mem_cons_of_mem _ hother)
    rcases since_cases (hsince event List.mem_cons_self) with ⟨later, lower, rfl, -⟩ | hevent
    · exact (h.offers_cycle hoffers later lower).resolve_right fun hpassed => hbig hpassed.1
    · exact offers_step_of_exchanges hoffers hevent

/-! ## Turns -/

/-- The arbiter knows the input of a request. -/
theorem Regular.input_lt (h : Regular policy inputs arbiter s)
    (hoffers : s.Offers now input packet) : input < arbiter.inputs := by
  rw [h.sound.inputs_eq, ← h.shape.links]
  exact hoffers.lt

/-- If an input has a request, then one is chosen. -/
theorem Regular.winner?_ne_none (h : Regular policy inputs arbiter s)
    (hoffers : s.Offers now input packet) : arbiter.winner? (s.requestVisible now) ≠ none := by
  intro hnone
  have hhidden := Arbiter.winner?_eq_none_iff.mp hnone input (h.input_lt hoffers)
  have hvisible := requestVisible_iff_offers.mpr ⟨packet, hoffers⟩
  exact Bool.false_ne_true (hhidden.symm.trans hvisible)

/-- An arbiter that chooses another input comes closer to one that has a request. -/
theorem Regular.wait_advance_lt (h : Regular .roundRobin inputs arbiter s) {later winner : Nat}
    (hoffers : s.Offers later input packet)
    (hwinner : arbiter.winner? (s.requestVisible later) = some winner) (hne : input ≠ winner) :
    (arbiter.advance winner).wait input < arbiter.wait input := by
  have hcursor := h.sound.cursor_lt
  have hinput := h.input_lt hoffers
  obtain ⟨hlt, -, hshortest⟩ := Arbiter.winner?_eq_some hcursor hwinner
  exact Arbiter.wait_advance_lt h.sound.policy_eq hcursor hinput hlt hne
    (hshortest input hinput (requestVisible_iff_offers.mpr ⟨packet, hoffers⟩))

/-- A cycle passes on the request that fits, or it waits for one turn less, unless a response goes
astray. -/
theorem Regular.cycle_in_turn (h : Regular .roundRobin inputs arbiter s)
    (hoffers : s.Offers now input packet) (hfits : Fits inputs packet.item) {later : Nat}
    (hlater : now ≤ later) (lower : Lookup.Link) :
    Passes later lower input packet s ∨ ∃ next,
      Regular .roundRobin inputs next (s.cycle later lower).state.1 ∧
        next.wait input + (takesTurn s (.cycle later lower)).toNat ≤ arbiter.wait input := by
  have hshape := h.shape.cycle later lower
  have hturn := h.turn later lower
  have hlate := hoffers.mono hlater
  rw [takesTurn]
  generalize heq : s.cycle later lower = outcome at hshape hturn
  cases hturn with
  | astray _ _ => exact .inr ⟨arbiter, h, Nat.le_refl _⟩
  | quiet _ hnone => exact absurd hnone (h.winner?_ne_none hlate)
  | @passed _ winner _ _ _ hfirst hwinner hlink hpop _ =>
    by_cases hne : input = winner
    · subst hne
      cases hlate.unique (hfirst.offers hlink hpop)
      exact .inl (passes_of_eq hfirst hlink hpop heq)
    · exact .inr ⟨_, ⟨hshape, rfl, h.sound.advance _⟩, h.wait_advance_lt hlate hwinner hne⟩
  | @blocked _ winner _ _ hwinner hother hbig =>
    by_cases hne : input = winner
    · subst hne
      cases hlate.unique hother
      exact absurd hfits hbig
    · exact .inr ⟨_, ⟨hshape, rfl, h.sound.advance _⟩, h.wait_advance_lt hlate hwinner hne⟩

/-- **A request that fits is passed on in its turn**, whatever is in the way of other inputs. -/
theorem Regular.in_turn (h : Regular .roundRobin inputs arbiter s)
    (hoffers : s.Offers now input packet) (hfits : Fits inputs packet.item) {events : List Event}
    (hsince : ∀ event ∈ events, event.since now = true)
    (hturns : arbiter.wait input < turns events s) :
    ∃ before later lower rest, events = before ++ .cycle later lower :: rest ∧
      turns before s ≤ arbiter.wait input ∧
        Passes later lower input packet (Exposed.after before s) := by
  induction events generalizing arbiter s with
  | nil => exact absurd hturns (Nat.not_lt_zero _)
  | cons event rest ih =>
    have hrest := fun other hother => hsince other (List.mem_cons_of_mem event hother)
    rw [turns] at hturns
    -- the request is passed on, or it stays, and the wait has become as much shorter as turns passed
    have hstep : (∃ later lower, event = .cycle later lower ∧ Passes later lower input packet s) ∨
        (Exposed.step s event).Offers now input packet ∧ ∃ next,
          Regular .roundRobin inputs next (Exposed.step s event) ∧
            next.wait input + (takesTurn s event).toNat ≤ arbiter.wait input := by
      rcases since_cases (hsince event List.mem_cons_self) with ⟨later, lower, rfl, hlater⟩ | hevent
      · rcases h.offers_cycle hoffers later lower with hstays | ⟨-, hpasses⟩
        · rcases h.cycle_in_turn hoffers hfits hlater lower with hpasses | hnext
          · exact .inl ⟨later, lower, rfl, hpasses⟩
          · exact .inr ⟨hstays, hnext⟩
        · exact .inl ⟨later, lower, rfl, hpasses⟩
      · have hidle : takesTurn s event = false := by
          cases event <;> first | rfl | cases hevent
        rw [hidle]
        exact .inr ⟨offers_step_of_exchanges hoffers hevent, arbiter,
          h.step_of_exchanges hevent, Nat.le_refl _⟩
    obtain ⟨later, lower, rfl, hpasses⟩ | ⟨hstays, next, hnext, hwait⟩ := hstep
    · exact ⟨[], later, lower, rest, rfl, Nat.zero_le _, hpasses⟩
    · obtain ⟨before, later, lower, others, heq, hbefore, hpasses⟩ :=
        ih hnext hstays hrest (by omega)
      refine ⟨event :: before, later, lower, others, by rw [heq, List.cons_append], ?_, hpasses⟩
      rw [turns]
      omega

/-- With priorities no input is chosen that is behind one with a request. -/
theorem Regular.winner_le (h : Regular .priority inputs arbiter s) {winner : Nat}
    (hoffers : s.Offers now input packet)
    (hwinner : arbiter.winner? (s.requestVisible now) = some winner) :
    winner ≤ input ∧ s.requestVisible now winner = true := by
  have hcursor := h.sound.cursor_eq rfl
  have hinput := h.input_lt hoffers
  obtain ⟨hlt, hready, hshortest⟩ := Arbiter.winner?_eq_some h.sound.cursor_lt hwinner
  have hle := hshortest input hinput (requestVisible_iff_offers.mpr ⟨packet, hoffers⟩)
  rw [Arbiter.wait_eq_self hcursor hlt, Arbiter.wait_eq_self hcursor hinput] at hle
  exact ⟨hle, hready⟩

/-- A cycle goes through only with a request of an input that is before a blocked one. -/
theorem Regular.passes_before (h : Regular .priority inputs arbiter s)
    (hoffers : s.Offers now input packet) (hbig : ¬ Fits inputs packet.item)
    (hthrough : (s.cycle now lower).error? = none) :
    ∃ other < input, s.requestVisible now other = true ∧
      ∃ packet, Passes now lower other packet s := by
  have hturn := h.turn now lower
  generalize heq : s.cycle now lower = outcome at hturn hthrough
  cases hturn with
  | astray _ _ => cases hthrough
  | quiet _ hnone => exact absurd hnone (h.winner?_ne_none hoffers)
  | @passed _ winner _ _ _ hfirst hwinner hlink hpop hfits =>
    obtain ⟨hle, hvisible⟩ := h.winner_le hoffers hwinner
    refine ⟨winner, Nat.lt_of_le_of_ne hle ?_, hvisible, _, passes_of_eq hfirst hlink hpop heq⟩
    rintro rfl
    cases hoffers.unique (hfirst.offers hlink hpop)
    exact hbig hfits
  | blocked _ _ _ _ => cases hthrough

/-- **With priorities a request that does not fit is in the way of all behind it.** -/
theorem Regular.blocks (h : Regular .priority inputs arbiter s)
    (hoffers : s.Offers now input packet) (hbig : ¬ Fits inputs packet.item) :
    Blocks now input packet s := by
  refine ⟨hoffers, fun later lower hlater hhidden hthrough => ?_,
    fun later lower hlater hthrough => ?_⟩
  · obtain ⟨other, hother, hvisible, -⟩ := h.passes_before (hoffers.mono hlater) hbig hthrough
    exact Bool.false_ne_true ((hhidden other hother).symm.trans hvisible)
  · obtain ⟨other, hother, -, hpassed⟩ := h.passes_before (hoffers.mono hlater) hbig hthrough
    exact ⟨other, hother, hpassed⟩

/-! ## The whole -/

theorem Regular.contained (h : Regular policy inputs arbiter s) (now : Nat) (lower : Lookup.Link) :
    Contained policy inputs arbiter now lower s where
  unknownRoute := (h.turn now lower).unknownRoute_iff h.shape
  gone _ _ _ hastray hpop := (h.turn now lower).gone h.shape hastray hpop
  delivers hstraight := (h.turn now lower).delivers hstraight
  tagOverflow := (h.turn now lower).tagOverflow_iff h.shape
  kept _ _ _ herror hwinner := (h.turn now lower).kept h.sound herror hwinner
  in_turn hpolicy input packet hoffers hfits further hsince hturns := by
    subst hpolicy
    have hwait : arbiter.wait input < inputs := by
      rw [← h.sound.inputs_eq]
      exact Arbiter.wait_lt (Nat.zero_lt_of_lt h.sound.cursor_lt) input
    obtain ⟨before, later, link, rest, heq, hbefore, hpasses⟩ :=
      h.in_turn hoffers hfits hsince (hwait.trans_le hturns)
    exact ⟨before, later, link, rest, heq, hbefore.trans_lt hwait, hpasses⟩
  in_the_way hpolicy tag shift herror := by
    subst hpolicy
    obtain ⟨-, -, input, packet, hwinner, hoffers, -, hbig⟩ :=
      ((h.turn now lower).tagOverflow_iff h.shape tag shift).mp herror
    refine ⟨input, packet, hwinner, hoffers, fun further hsince => ?_⟩
    obtain ⟨next, hnext⟩ := h.cycle now lower
    have hstays := (h.offers_cycle hoffers now lower).resolve_right fun hpassed => hbig hpassed.1
    obtain ⟨last, hlast⟩ := hnext.after further
    exact hlast.blocks (hnext.offers_after hstays hbig hsince) hbig

theorem regular_of_new {config : SwitchConfig} (hinputs : 2 ≤ inputs)
    (hnew : Switch.new inputs config = .ok s) :
    Regular config.policy inputs (.ofInputs config.policy inputs) s := by
  refine ⟨.of_new hnew, ?_, rfl, rfl, ?_, fun _ => rfl⟩
  · rw [eq_fresh_of_new hnew]
    exact if_neg (by omega)
  · show 0 < inputs
    omega

/-- **A request that cannot be passed on blocks no input but its own in round-robin order, and with
priorities none before it.**  Whatever is sent to a switch between several inputs and whatever comes
from below: a cycle that is cut short does no more than to throw a response away that belongs to no
input, or to deliver one and to give the next input its turn. -/
theorem blocked_inputs_are_contained {config : SwitchConfig} (hinputs : 2 ≤ inputs)
    (hnew : Switch.new inputs config = .ok s) (events : List Event) (now : Nat)
    (lower : Lookup.Link) :
    ∃ arbiter, (after events s).mode = .arbitrated arbiter ∧
      Contained config.policy inputs arbiter now lower (after events s) := by
  obtain ⟨arbiter, h⟩ := (regular_of_new hinputs hnew).after events
  exact ⟨arbiter, h.mode, h.contained now lower⟩

/-- Three inputs take turns.  The tag of the first request leaves no room for two more bits, so the
first cycle fails; a response to an input that does not exist cuts the second one short; and the
third one passes on the request of the second input. -/
theorem blocked_inputs_are_contained_of_three :
    ∃ s arbiter, Switch.new 3 { policy := .roundRobin } = .ok s ∧
      let t := after [.ask 0 ⟨0x100, 1, 0x40000000, 10⟩ 1 0, .ask 1 ⟨0x200, 2, 7, 11⟩ 1 0] s
      let stray : Lookup.Link := { responses := ⟨[⟨⟨7, .sentinel, 12, 0x300, 3⟩, 1, 2⟩]⟩ }
      t.mode = .arbitrated arbiter ∧ Contained .roundRobin 3 arbiter 1 {} t ∧
        (t.cycle 1 {}).error? = some (.tagOverflow 0x40000000 2) ∧
        ((after [.cycle 1 {}] t).cycle 2 stray).error? = some (.unknownRoute 7 3) ∧
        ((after [.cycle 1 {}, .cycle 2 stray] t).cycle 3 {}).state.2.requests
          = ⟨[⟨⟨0x200, 2, 29, 11⟩, 3, 4⟩]⟩ := by
  obtain ⟨arbiter, hmode, hcontained⟩ :=
    @blocked_inputs_are_contained _ 3 { policy := .roundRobin } (by decide) rfl
      [.ask 0 ⟨0x100, 1, 0x40000000, 10⟩ 1 0, .ask 1 ⟨0x200, 2, 7, 11⟩ 1 0] 1 {}
  exact ⟨_, arbiter, rfl, hmode, hcontained, by decide, by decide, by decide⟩

/-- With priorities an input before the blocked one may have a request that becomes visible later,
and this request is passed on. -/
theorem inputs_before_are_passed_on :
    ∃ s, Switch.new 2 { policy := .priority } = .ok s ∧
      let t := after [.ask 1 ⟨0x100, 1, 0x80000000, 10⟩ 1 0, .ask 0 ⟨0x200, 2, 7, 11⟩ 3 0] s
      (t.cycle 1 {}).error? = some (.tagOverflow 0x80000000 1) ∧
        ¬ ∀ later lower, 1 ≤ later →
          ((t.cycle 1 {}).state.1.cycle later lower).error? ≠ none := by
  refine ⟨_, rfl, by decide, fun hfails => ?_⟩
  exact hfails 3 {} (by decide) (by decide)

end Exposed

end BoundsCheck.Switch
