import BoundsCheck.Fault
import BoundsCheck.Text.Quoted

/-!
# Delayed queues

A port is a queue in which every item becomes visible some cycles after it was sent.  Items leave
in the order they came in, so an item that is not yet visible holds up all behind it.

* `Port.send` appends an item, `Port.pop?` removes the first one once it is visible.
* `Port.drain` removes all that is visible at once.
* `Port.moveInto` empties one port into another and keeps the times of the items.
-/

set_option autoImplicit false

namespace BoundsCheck

/-- An item under way: sent in one cycle, visible from another cycle on. -/
structure Packet (α : Type) where
  item : α
  sent : Nat
  ready : Nat
deriving DecidableEq, Repr

/-- A queue of items under way, the next one to leave first. -/
structure Port (α : Type) where
  packets : List (Packet α) := []
deriving DecidableEq, Repr

namespace Port

variable {α : Type}

/-- The port nothing is under way on. -/
def empty : Port α := ⟨[]⟩

/-- Appends an item that is sent now and becomes visible after `delay` cycles. -/
def send (item : α) (delay now : Nat) (p : Port α) : Port α :=
  ⟨p.packets ++ [⟨item, now, now + delay⟩]⟩

/-- Appends an item, unless it were visible in the cycle it is sent. -/
def send? (item : α) (delay now : Nat) (p : Port α) : Except Fault (Port α) :=
  if delay = 0 then .error .zeroDelay else .ok (p.send item delay now)

/-- Appends several items that are all sent now. -/
def sendAll (items : List α) (delay now : Nat) (p : Port α) : Port α :=
  ⟨p.packets ++ items.map (⟨·, now, now + delay⟩)⟩

/-- The first item, if it is visible. -/
def front? (now : Nat) (p : Port α) : Option α :=
  match p.packets with
  | [] => none
  | packet :: _ => if packet.ready ≤ now then some packet.item else none

/-- Nothing can be taken out in this cycle. -/
def isEmpty (now : Nat) (p : Port α) : Bool := (p.front? now).isNone

/-- Takes the first item out, if it is visible. -/
def pop? (now : Nat) (p : Port α) : Option (Packet α × Port α) :=
  match p.packets with
  | [] => none
  | packet :: rest => if packet.ready ≤ now then some (packet, ⟨rest⟩) else none

/-- What can be taken out in this cycle, and what stays behind. -/
def drain (now : Nat) (p : Port α) : List (Packet α) × Port α :=
  (p.packets.takeWhile (·.ready ≤ now), ⟨p.packets.dropWhile (·.ready ≤ now)⟩)

/-- How many items are under way, visible or not. -/
def length (p : Port α) : Nat := p.packets.length

/-- Something is under way. -/
def hasPending (p : Port α) : Bool := !p.packets.isEmpty

/-- Appends all packets of `source` to `target` as they are. -/
def moveInto (source target : Port α) : Port α × Port α :=
  (empty, ⟨target.packets ++ source.packets⟩)

/-- No packet becomes visible in the cycle it was sent. -/
def isTimely (p : Port α) : Bool := p.packets.all fun packet => packet.sent < packet.ready

/-- The port as it is written in reports: how many items are under way and, for each, the cycle
from which on it is visible. -/
def text (render : α → String) (p : Port α) : String :=
  "Port(" ++ Text.padLeft 2 ' ' (toString p.length) ++ ")"
    ++ Text.quotedList (p.packets.map fun packet => render packet.item ++ "@" ++ toString packet.ready)

end Port

/-- The two ports of a server: questions for it, and its answers. -/
structure Link (α β : Type) where
  requests : Port α := {}
  responses : Port β := {}
deriving DecidableEq, Repr

namespace Link

variable {α β : Type}

/-- The link nothing is under way on. -/
def empty : Link α β := ⟨.empty, .empty⟩

/-- Something is under way in one of the two directions. -/
def hasPending (l : Link α β) : Bool := l.requests.hasPending || l.responses.hasPending

/-- No packet becomes visible in the cycle it was sent. -/
def isTimely (l : Link α β) : Bool := l.requests.isTimely && l.responses.isTimely

/-- Puts a question on the link. -/
def request (item : α) (delay now : Nat) (l : Link α β) : Link α β :=
  { l with requests := l.requests.send item delay now }

/-- Puts an answer on the link. -/
def respond (item : β) (delay now : Nat) (l : Link α β) : Link α β :=
  { l with responses := l.responses.send item delay now }

end Link

end BoundsCheck
