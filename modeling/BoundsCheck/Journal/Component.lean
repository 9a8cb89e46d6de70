import BoundsCheck.Checker
import BoundsCheck.Journal.Event
import BoundsCheck.RangeCache
import BoundsCheck.RangeTable
import BoundsCheck.Resolver
import BoundsCheck.Switch

/-!
# The events of a component

For each component, the events of a step from a given state, in the order in which they happen.
The step itself is a function of the component; nothing here changes a state.
-/

set_option autoImplicit false

namespace BoundsCheck

open Journal

/-! ## Resolvers -/

/-- What is reported when the buffer of an entry is allocated. -/
def Allocations.insertEvents (entry : RangeEntry) (a : Allocations) : List Event :=
  if entry.size = 0 then [.emptyBuffer entry.bufferId]
  else if a.ranges.overlaps (.ofEntry entry) then [.overlap entry.bufferId]
  else []

/-- What is reported when the buffers of several entries are allocated, up to the first that cannot
be. -/
def Allocations.insertAllEvents (a : Allocations) : List RangeEntry → List Event
  | [] => []
  | entry :: rest =>
    a.insertEvents entry ++
      match a.insert entry with
      | .ok a => a.insertAllEvents rest
      | .error _ => []

/-- What is reported when the resolver of a configuration is built. -/
def Resolver.events (c : Config) : List Event :=
  match c.resolver.kind with
  | .exact => []
  | .range => Allocations.insertAllEvents {} c.table.entries

/-! ## The range table -/

/-- What the table reports about one lookup. -/
def RangeTable.serveEvents (t : RangeTable) (req : Lookup.Request) : List Event :=
  [.tableReceive req]
    ++ (if (t.get? req.bufferId).isSome then [] else [.unknownBuffer req])
    ++ [.tableSend (req.answer (t.answerFor req.bufferId))]

/-- What the table reports about a cycle. -/
def RangeTable.events (now : Nat) (t : RangeTable) : List Event :=
  (t.port.requests.drain now).1.flatMap fun packet => t.serveEvents packet.item

/-! ## Range caches -/

namespace RangeCache

/-- The entry that is given up for the entry of a response. -/
def evicted? (rsp : Lookup.Response) (c : RangeCache) : Option RangeEntry :=
  if isRealEntry rsp then c.lines.victim? rsp.entry else none

/-- What a cache reports about the lookups that waited for a response. -/
def waitingEvents (rsp : Lookup.Response) (c : RangeCache) : List Event :=
  match c.misses.take? rsp.bufferId with
  | none => [.stray c.name rsp]
  | some (waiting, _) => waiting.map fun req => .respond c.name (req.answer rsp.entry)

/-- What a cache reports about a response. -/
def fillEvents (rsp : Lookup.Response) (c : RangeCache) : List Event :=
  [.fill c.name rsp] ++ ((c.evicted? rsp).map (Event.evict c.name)).toList ++ c.waitingEvents rsp

/-- What a cache reports about a lookup. -/
def accessEvents (req : Lookup.Request) (c : RangeCache) : List Event :=
  if c.lines.contains req.bufferId then [.hit c.name req]
  else if c.misses.merges req then [.mergedMiss c.name req]
  else [.miss c.name req]

/-- What a cache reports about taking in a response from below. -/
def responseEvents (now : Nat) (lower : Lookup.Link) (c : RangeCache) : List Event :=
  match lower.responses.pop? now with
  | none => []
  | some (packet, _) => c.fillEvents packet.item

/-- What a cache reports about taking in a lookup from above. -/
def requestEvents (now : Nat) (c : RangeCache) : List Event :=
  match c.port.requests.pop? now with
  | none => []
  | some (packet, _) => c.accessEvents packet.item

/-- What a cache reports about a cycle. -/
def events (now : Nat) (lower : Lookup.Link) (c : RangeCache) : List Event :=
  c.responseEvents now lower ++ (c.takeResponse now lower).1.requestEvents now

/-- The event after which a cache whose answers take no time cannot go on. -/
def isLastEvent : Event → Bool
  | .respond _ _ | .hit _ _ => true
  | _ => false

/-- What a cache whose latencies may be zero reports about a cycle, up to the first fault. -/
def eventsUntilFault (now : Nat) (lower : Lookup.Link) (c : RangeCache) : List Event :=
  let events := c.events now lower
  if c.config.hitLatency = 0 then
    events.takeWhile (!isLastEvent ·) ++ (events.find? isLastEvent).toList
  else events

end RangeCache

/-! ## Switches -/

namespace Switch

/-- What a switch reports about taking a response from the server. -/
def routeEvents (now : Nat) (lower : Lookup.Link) (s : Switch) : List Event :=
  match lower.responses.pop? now with
  | none => []
  | some (packet, _) =>
    let rsp := packet.item
    let input := TagPacking.inputOf s.shift rsp.tag
    if input < s.inputs.length then
      [.route { rsp with tag := TagPacking.unstamp s.shift rsp.tag } input]
    else []

/-- What a switch reports about passing a request on. -/
def grantEvents (now : Nat) (arbiter : Arbiter) (s : Switch) : List Event :=
  match arbiter.select (s.requestVisible now) with
  | (none, _) => []
  | (some input, arbiter) =>
    match s.inputs[input]?.bind (·.requests.front? now) with
    | none => []
    | some req =>
      if TagPacking.overflows s.shift req.tag then []
      else
        [.grant { req with tag := TagPacking.stamp s.shift input req.tag } input arbiter.cursor]

/-- What a switch reports about a cycle. -/
def events (now : Nat) (lower : Lookup.Link) (s : Switch) : List Event :=
  match s.mode with
  | .bypass => []
  | .arbitrated arbiter =>
    let routed := s.route now lower
    s.routeEvents now lower
      ++ (if routed.error?.isNone then routed.state.1.grantEvents now arbiter else [])

end Switch

/-! ## Checkers -/

namespace Checker

/-- What a checker reports about an answer. -/
def completeEvents (now : Nat) (rsp : Lookup.Response) (c : Checker) : List Event :=
  match c.slots.get? rsp.tag with
  | none => []
  | some pending =>
    [.judge c.id (verdictOf now rsp pending.trace)]
      ++ (if pending.remaining - 1 = 0 then [.emit c.id pending.trace rsp.tag] else [])

/-- What a checker reports about taking in an answer. -/
def responseEvents (now : Nat) (l1 : Lookup.Link) (c : Checker) : List Event :=
  match l1.responses.pop? now with
  | none => []
  | some (packet, _) => c.completeEvents now packet.item

/-- What a checker reports about taking in a trace. -/
def issueEvents (now : Nat) (c : Checker) : List Event :=
  match c.input.front? now with
  | none => []
  | some trace =>
    match trace.firstAccess? with
    | none => [.stall c.id trace]
    | some access =>
      match c.resolve access.addr with
      | none => [.unresolved c.id c.config.unresolved trace]
      | some id =>
        match c.slots.allocate ⟨trace, 1⟩ with
        | .error _ => []
        | .ok (tag, _) => [.lookUp c.id (requestFor trace access.addr id tag)]

/-- What a checker reports about a cycle. -/
def events (now : Nat) (l1 : Lookup.Link) (c : Checker) : List Event :=
  let answered := c.takeResponse now l1
  c.responseEvents now l1
    ++ (if answered.error?.isNone then answered.state.1.issueEvents now else [])

end Checker

end BoundsCheck
