import BoundsCheck.Config.Basic
import BoundsCheck.MissTable
import BoundsCheck.Stats.Basic

/-!
# Range caches

A range cache answers lookups from the entries it holds.  It forwards a lookup of another buffer to
a lower server, once, and lets all further lookups of that buffer wait for the same answer.

* `RangeCache.fill` — an answer arrives from below.
* `RangeCache.access` — a lookup arrives from above.
* `RangeCache.cycle` — one cycle: at most one of each, the answer first.
-/

set_option autoImplicit false

namespace BoundsCheck

/-- A cache of range entries, behind a port. -/
structure RangeCache where
  name : String
  id : UInt64
  config : CacheConfig
  lines : LineSet
  misses : MissTable := {}
  port : Lookup.Link := {}
  stats : Stats.Cache := {}
deriving DecidableEq, Repr

namespace RangeCache

/-- An empty cache. -/
def new (name : String) (id : UInt64) (config : CacheConfig) : Except Fault RangeCache := do
  let lines ← LineSet.new config.capacity.toNat config.policy
  return { name, id, config, lines }

/-- Some lookup is under way or waits for an answer. -/
def busy (c : RangeCache) : Bool := c.port.hasPending || !c.misses.isEmpty

/-! ## Answers from below -/

/-- The response brings the entry of the buffer that was asked for. -/
def isRealEntry (rsp : Lookup.Response) : Bool :=
  !rsp.entry.isSentinel && rsp.entry.bufferId == rsp.bufferId

/-- Keeps the entry of a response, if it is one of the buffer that was asked for. -/
def keep (rsp : Lookup.Response) (c : RangeCache) : RangeCache :=
  if isRealEntry rsp then
    { c with
      lines := c.lines.add rsp.entry
      stats.evictions := c.stats.evictions + (if (c.lines.victim? rsp.entry).isSome then 1 else 0) }
  else c

/-- Answers all lookups that waited for a response. -/
def answerWaiting (now : Nat) (rsp : Lookup.Response) (c : RangeCache) : RangeCache :=
  match c.misses.take? rsp.bufferId with
  | none => c
  | some (waiting, misses) =>
    { c with
      misses := misses
      port.responses := c.port.responses.sendAll (waiting.map (·.answer rsp.entry))
        c.config.hitLatency.toNat now }

/-- A response arrives: its entry is kept and the waiting lookups are answered. -/
def fill (now : Nat) (rsp : Lookup.Response) (c : RangeCache) : RangeCache :=
  (c.keep rsp).answerWaiting now rsp

/-! ## Lookups from above -/

/-- Counts a lookup that was sent in the cycle `sent` and taken out now. -/
def countRead (now sent : Nat) (c : RangeCache) : RangeCache :=
  { c with
    stats.reads := c.stats.reads + 1
    stats.pipelineStalls := c.stats.pipelineStalls + (now - sent) }

/-- Answers a lookup with an entry that is held. -/
def hit (now : Nat) (req : Lookup.Request) (entry : RangeEntry) (c : RangeCache) : RangeCache :=
  { c with
    lines := c.lines.touch req.bufferId
    port := c.port.respond (req.answer entry) c.config.hitLatency.toNat now
    stats.hits := c.stats.hits + 1 }

/-- Lets a lookup wait with others of its buffer, for an answer that is under way. -/
def mergeMiss (req : Lookup.Request) (c : RangeCache) : RangeCache :=
  { c with
    misses := c.misses.add req
    stats.mergedMisses := c.stats.mergedMisses + 1 }

/-- Lets a lookup wait as the first of its buffer. -/
def readMiss (req : Lookup.Request) (c : RangeCache) : RangeCache :=
  { c with
    misses := c.misses.add req
    stats.readMisses := c.stats.readMisses + 1 }

/-- A lookup arrives: it is answered, or waits and, if it is the first to, is forwarded. -/
def access (now : Nat) (req : Lookup.Request) (lower : Lookup.Link) (c : RangeCache) :
    RangeCache × Lookup.Link :=
  match c.lines.get? req.bufferId with
  | some entry => (c.hit now req entry, lower)
  | none =>
    if c.misses.merges req then (c.mergeMiss req, lower)
    else (c.readMiss req, lower.request req c.config.forwardingLatency.toNat now)

/-! ## Cycles -/

/-- Counts one cycle of waiting for each response that is under way below. -/
def countWaiting (c : RangeCache) : RangeCache :=
  { c with stats.memLatency := c.stats.memLatency + c.misses.size }

/-- Takes in a response from below, if one is visible. -/
def takeResponse (now : Nat) (lower : Lookup.Link) (c : RangeCache) : RangeCache × Lookup.Link :=
  match lower.responses.pop? now with
  | none => (c, lower)
  | some (packet, rest) => (c.fill now packet.item, { lower with responses := rest })

/-- Takes in a lookup from above, if one is visible. -/
def takeRequest (now : Nat) (lower : Lookup.Link) (c : RangeCache) : RangeCache × Lookup.Link :=
  match c.port.requests.pop? now with
  | none => (c, lower)
  | some (packet, rest) =>
    ({ c with port.requests := rest }.countRead now packet.sent).access now packet.item lower

/-- One cycle of a cache above a lower server. -/
def cycle (now : Nat) (lower : Lookup.Link) (c : RangeCache) : RangeCache × Lookup.Link :=
  let (c, lower) := c.countWaiting.takeResponse now lower
  c.takeRequest now lower

/-- One cycle of a cache whose latencies may be zero.  It is a fault to send anything with no
delay. -/
def cycle? (now : Nat) (lower : Lookup.Link) (c : RangeCache) :
    Except Fault (RangeCache × Lookup.Link) :=
  let (c, lower) := c.cycle now lower
  if c.port.isTimely && lower.isTimely then .ok (c, lower) else .error .zeroDelay

/-- The cache with nothing held, nothing under way and nothing counted. -/
def reset (c : RangeCache) : RangeCache :=
  { c with lines := c.lines.clear, misses := c.misses.clear, port := {}, stats := {} }

end RangeCache

end BoundsCheck
