import BoundsCheck.Config.Validation
import BoundsCheck.Lookup
import BoundsCheck.Stats.Basic

/-!
# The range table

The table holds the range entries of all buffers.  In every cycle it answers all lookups that are
visible, with the entry of the buffer or, for a buffer it does not know, with the sentinel.
-/

set_option autoImplicit false

namespace BoundsCheck

/-- The range entries of all buffers, behind a port. -/
structure RangeTable where
  entries : List RangeEntry
  latency : UInt64
  port : Lookup.Link := {}
  stats : Stats.Table := {}
deriving DecidableEq, Repr

namespace RangeTable

/-- The first entry that cannot be in a table with the entries before it. -/
def checkEntries (known : List BufferId) : List RangeEntry → Except Config.Error Unit
  | [] => .ok ()
  | entry :: rest =>
    if entry.bufferId = invalidBuffer then .error .reservedBufferId
    else if known.contains entry.bufferId then .error (.duplicateBufferId entry.bufferId)
    else checkEntries (entry.bufferId :: known) rest

/-- A table of entries for different buffers. -/
def new (entries : List RangeEntry) (latency : UInt64) : Except Config.Error RangeTable := do
  checkLatency "rbt_mem" latency
  checkEntries [] entries
  return { entries, latency }

/-- The table a configuration asks for. -/
def ofConfig (c : TableConfig) : Except Config.Error RangeTable := new c.entries c.latency

/-- The entry of a buffer. -/
def get? (t : RangeTable) (id : BufferId) : Option RangeEntry :=
  t.entries.find? (·.bufferId == id)

/-- The entry a lookup of the buffer is answered with. -/
def answerFor (t : RangeTable) (id : BufferId) : RangeEntry := (t.get? id).getD .sentinel

/-- Some lookup is under way. -/
def busy (t : RangeTable) : Bool := t.port.hasPending

/-- The counters after one more lookup was answered. -/
def count (t : RangeTable) (now : Nat) (packet : Packet Lookup.Request) : Stats.Table where
  lookups := t.stats.lookups + 1
  unknownBufferIds :=
    t.stats.unknownBufferIds + (if (t.get? packet.item.bufferId).isSome then 0 else 1)
  queueingCycles := t.stats.queueingCycles + (now - packet.sent)

/-- Answers one lookup. -/
def serve (now : Nat) (t : RangeTable) (packet : Packet Lookup.Request) : RangeTable :=
  { t with
    port := t.port.respond (packet.item.answer (t.answerFor packet.item.bufferId))
      t.latency.toNat now
    stats := t.count now packet }

/-- Answers all lookups that are visible. -/
def cycle (now : Nat) (t : RangeTable) : RangeTable :=
  let (visible, rest) := t.port.requests.drain now
  visible.foldl (serve now) { t with port := { t.port with requests := rest } }

/-- The table with nothing under way and nothing counted. -/
def reset (t : RangeTable) : RangeTable := { t with port := {}, stats := {} }

end RangeTable

end BoundsCheck
