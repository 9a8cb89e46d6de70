import BoundsCheck.Journal.Component
import BoundsCheck.Proofs.Counting
import BoundsCheck.Proofs.InFlight
import BoundsCheck.Proofs.Responder

/-!
# Every lookup is answered once

A cache above any server that answers each lookup once, whenever and in whatever order, answers
each lookup once as well: with its own tag, and with the entry that the server would have named.
It never has two lookups of one buffer below it, and its counters tell what it did.

* `RangeCache.Event`, `RangeCache.Bench` — what happens to a cache and around it.
* `RangeCache.Bench.Accounted` — the accounts of a cache and its surroundings.
* `RangeCache.Bench.answered_once` — they are right after any events.
-/

set_option autoImplicit false

namespace BoundsCheck

open Lookup

namespace RangeCache

/-! ## A cache and its surroundings -/

/-- What happens to a cache or to the server below it. -/
inductive Event
  /-- A lookup is sent to the cache. -/
  | ask (req : Request) (delay now : Nat)
  /-- An answer is taken from the cache, if one is visible. -/
  | collect (now : Nat)
  /-- The cache works. -/
  | cycle (now : Nat)
  /-- The server takes a lookup in, if one is visible. -/
  | fetch (now : Nat)
  /-- The server answers one of the lookups that it has taken in. -/
  | answer (pick delay now : Nat)
deriving DecidableEq, Repr

/-- A cache above a responder, with what has come and gone.  Lists begin with what came first. -/
structure Bench where
  cache : RangeCache
  server : Responder := {}
  /-- The lookups that were sent to the cache. -/
  asked : List Request := []
  /-- The answers that were taken from the cache. -/
  collected : List (Packet Response) := []
  /-- The responses that the cache has taken in. -/
  filled : List Response := []

namespace Bench

/-- The bench after an event.  The server answers with the entries that `f` names. -/
def step (f : BufferId → RangeEntry) (b : Bench) : Event → Bench
  | .ask req delay now =>
    { b with
      cache.port := b.cache.port.request req delay now
      asked := b.asked ++ [req] }
  | .collect now =>
    match b.cache.port.responses.pop? now with
    | none => b
    | some (packet, rest) =>
      { b with
        cache.port.responses := rest
        collected := b.collected ++ [packet] }
  | .cycle now =>
    { b with
      cache := (b.cache.cycle now b.server.link).1
      server.link := (b.cache.cycle now b.server.link).2
      filled := b.filled ++ received now b.server.link }
  | .fetch now => { b with server := b.server.fetch now }
  | .answer pick delay now =>
    { b with server := b.server.answer pick (fun req => req.answer (f req.bufferId)) delay now }

/-- The bench after several events. -/
def after (f : BufferId → RangeEntry) (events : List Event) (b : Bench) : Bench :=
  events.foldl (step f) b

/-- All answers that the cache has ever sent. -/
def answers (b : Bench) : List (Packet Response) := b.collected ++ b.cache.port.responses.packets

/-- The accounts of a cache above a server that answers with the entries that `f` names. -/
structure Accounted (config : CacheConfig) (f : BufferId → RangeEntry) (b : Bench) : Prop where
  /-- The lookups taken in are those that were answered, each once, in its own name and with the
  entry that `f` names, and those that wait. -/
  answered : ∃ taken answered : List Request,
    b.asked = taken ++ b.cache.port.requests.items ∧
      b.cache.stats.reads = taken.length ∧
      (↑taken : Multiset Request) = ↑answered + b.cache.misses.waiting ∧
      b.answers.map (·.item) = answered.map fun req => req.answer (f req.bufferId)
  /-- Every answer takes as long as the configuration says. -/
  latency : ∀ packet ∈ b.answers, packet.ready = packet.sent + config.hitLatency.toNat
  /-- It is sent in the cycle in which the cache finds the entry. -/
  sent : ∀ now, ∃ answers : List Response,
    (b.cache.cycle now b.server.link).1.port.responses
      = b.cache.port.responses.sendAll answers config.hitLatency.toNat now
  /-- Each buffer with a pending miss has one lookup outstanding below, and no other has any. -/
  outstanding : EachOnce b.cache.misses.contains (b.server.outstanding.map (·.bufferId))
  /-- No response comes that nobody waits for. -/
  awaited : ∀ now rsp, Journal.Event.stray b.cache.name rsp ∉ b.cache.events now b.server.link
  /-- The counters tell what became of the lookups and of the entries that came in. -/
  counted : b.cache.Counted b.filled
  /-- Each miss was passed on to the server. -/
  forwarded : b.cache.stats.readMisses = b.server.forwarded.length

/-- What always holds of a cache above a responder. -/
structure Regular (config : CacheConfig) (f : BufferId → RangeEntry) (b : Bench) : Prop where
  configured : b.cache.config = config
  misses : b.cache.misses.WellFormed
  tidy : b.cache.Tidy
  knows : b.cache.Knows f
  /-- All answers that the cache has sent bring the entries that `f` names. -/
  above : ∀ packet ∈ b.answers, packet.item.entry = f packet.item.bufferId
  /-- So do all that were sent to it. -/
  below : Answers f b.server.link
  /-- Nothing is lost between the lookups sent and the answers taken. -/
  pending : (↑b.asked : Multiset Request)
    = b.cache.pending + ↑(b.collected.map (·.item.question))
  /-- Lookups are taken in in the order they came. -/
  inOrder : ∃ taken : List Request, b.asked = taken ++ b.cache.port.requests.items ∧
    b.cache.stats.reads = taken.length
  latency : ∀ packet ∈ b.answers, packet.ready = packet.sent + config.hitLatency.toNat
  /-- The first lookups of the misses are outstanding. -/
  outstanding : b.server.outstanding = b.cache.misses.heads
  counted : b.cache.Counted b.filled
  forwarded : b.cache.stats.readMisses = b.server.forwarded.length

variable {config : CacheConfig} {f : BufferId → RangeEntry} {b : Bench}

theorem Regular.ask (h : b.Regular config f) (req : Request) (delay now : Nat) :
    (b.step f (.ask req delay now)).Regular config f := by
  obtain ⟨taken, hasked, hreads⟩ := h.inOrder
  refine ⟨h.configured, h.misses, h.tidy.congr rfl rfl, h.knows, h.above, h.below, ?_,
    ⟨taken, ?_, hreads⟩, h.latency, h.outstanding,
    ⟨h.counted.reads, h.counted.misses, h.counted.lines⟩, h.forwarded⟩
  · show (↑(b.asked ++ [req]) : Multiset Request)
      = underway (b.cache.port.request req delay now) + b.cache.misses.waiting + _
    rw [underway_request, ← Multiset.coe_add, Multiset.coe_singleton, h.pending,
      RangeCache.pending]
    show _ = _ + (↑(b.collected.map (·.item.question)) : Multiset Request)
    abel
  · show b.asked ++ [req] = taken ++ (b.cache.port.requests.send req delay now).items
    rw [Port.items_send, hasked, List.append_assoc]

theorem Regular.collect (h : b.Regular config f) (now : Nat) :
    (b.step f (.collect now)).Regular config f := by
  rw [step]
  split
  · exact h
  · rename_i packet rest hpop
    have hanswers : b.collected ++ [packet] ++ rest.packets = b.answers := by
      rw [answers, (Port.pop?_eq_some_iff.mp hpop).1, List.append_assoc]
      rfl
    refine ⟨h.configured, h.misses, h.tidy.congr rfl rfl, h.knows, ?_, h.below, ?_,
      h.inOrder, ?_, h.outstanding, ⟨h.counted.reads, h.counted.misses, h.counted.lines⟩,
      h.forwarded⟩
    · intro other hother
      change other ∈ b.collected ++ [packet] ++ rest.packets at hother
      rw [hanswers] at hother
      exact h.above other hother
    · show _ = underway { b.cache.port with responses := rest } + b.cache.misses.waiting
        + (↑((b.collected ++ [packet]).map (·.item.question)) : Multiset Request)
      rw [h.pending, RangeCache.pending, underway_of_pop?_responses hpop, List.map_append,
        List.map_singleton, ← Multiset.coe_add, Multiset.coe_singleton]
      abel
    · intro other hother
      change other ∈ b.collected ++ [packet] ++ rest.packets at hother
      rw [hanswers] at hother
      exact h.latency other hother

/-- The answers that a cache sends come behind those that it has sent. -/
theorem mem_answers_cycle (hconfig : b.cache.config = config) {now : Nat} {packet : Packet Response}
    (hpacket : packet ∈ (b.step f (.cycle now)).answers) :
    packet ∈ b.answers ∨ packet.item ∈ (b.cache.cycle now b.server.link).1.port.responses.items ∧
      packet.ready = packet.sent + config.hitLatency.toNat := by
  obtain ⟨new, hnew⟩ := responses_cycle now b.server.link b.cache
  rcases List.mem_append.mp hpacket with hold | hport
  · exact .inl (List.mem_append_left _ hold)
  · have hitem := List.mem_map_of_mem (f := (·.item)) hport
    change packet ∈ (b.cache.cycle now b.server.link).1.port.responses.packets at hport
    rw [hnew, Port.sendAll, List.mem_append] at hport
    rcases hport with hold | hsent
    · exact .inl (List.mem_append_right _ hold)
    · obtain ⟨rsp, -, rfl⟩ := List.mem_map.mp hsent
      rw [hconfig]
      exact .inr ⟨hitem, rfl⟩

theorem Regular.cycle (h : b.Regular config f) (now : Nat) :
    (b.step f (.cycle now)).Regular config f := by
  have hport : Answers f b.cache.port := by
    intro rsp hrsp
    obtain ⟨packet, hpacket, rfl⟩ := List.mem_map.mp hrsp
    exact h.above packet (List.mem_append_right _ hpacket)
  obtain ⟨hknows, habove, hbelow⟩ := honest_cycle h.knows hport h.misses h.below now
  obtain ⟨taken, hasked, hreads⟩ := h.inOrder
  obtain ⟨more, hmore, hreads'⟩ := requests_cycle now b.server.link b.cache
  obtain ⟨passed, hpassed, hmisses⟩ := forwards_cycle now b.server.link b.cache
  refine ⟨(config_cycle now _ _).trans h.configured, wellFormed_cycle h.misses now _,
    h.tidy.cycle now _, hknows, fun packet hpacket => ?_, hbelow, ?_, ⟨taken ++ more, ?_, ?_⟩,
    fun packet hpacket => ?_, heads_cycle h.misses h.outstanding now,
    h.counted.cycle h.misses h.tidy h.outstanding now, ?_⟩
  · rcases mem_answers_cycle h.configured hpacket with hold | ⟨hitem, -⟩
    · exact h.above packet hold
    · exact habove _ hitem
  · show _ = (b.cache.cycle now b.server.link).1.pending + _
    rw [pending_cycle h.misses]
    exact h.pending
  · show b.asked = taken ++ more ++ (b.cache.cycle now b.server.link).1.port.requests.items
    rw [hasked, hmore, List.append_assoc]
  · show (b.cache.cycle now b.server.link).1.stats.reads = _
    rw [hreads', hreads, List.length_append]
  · rcases mem_answers_cycle h.configured hpacket with hold | ⟨-, hlatency⟩
    · exact h.latency packet hold
    · exact hlatency
  · show (b.cache.cycle now b.server.link).1.stats.readMisses
      = (b.server.fetched ++ (b.cache.cycle now b.server.link).2.requests.items).length
    rw [hmisses, hpassed, Port.items_sendAll, h.forwarded, ← List.append_assoc,
      List.length_append, Responder.forwarded]

theorem Regular.fetch (h : b.Regular config f) (now : Nat) :
    (b.step f (.fetch now)).Regular config f := by
  refine ⟨h.configured, h.misses, h.tidy, h.knows, h.above, ?_, h.pending, h.inOrder, h.latency,
    (Responder.outstanding_fetch now _).trans h.outstanding, h.counted, ?_⟩
  · intro rsp hrsp
    change rsp ∈ (b.server.fetch now).link.responses.items at hrsp
    rw [Responder.responses_fetch] at hrsp
    exact h.below rsp hrsp
  · show _ = (b.server.fetch now).forwarded.length
    rw [Responder.forwarded_fetch]
    exact h.forwarded

theorem Regular.answer (h : b.Regular config f) (pick delay now : Nat) :
    (b.step f (.answer pick delay now)).Regular config f := by
  refine ⟨h.configured, h.misses, h.tidy, h.knows, h.above,
    Responder.answers_answer h.below (fun _ => rfl) pick delay now, h.pending, h.inOrder,
    h.latency, (Responder.outstanding_answer (fun _ => rfl) pick delay now _).trans h.outstanding,
    h.counted, ?_⟩
  show _ = (b.server.answer pick _ delay now).forwarded.length
  rw [Responder.forwarded_answer]
  exact h.forwarded

theorem Regular.step (h : b.Regular config f) (event : Event) :
    (b.step f event).Regular config f := by
  cases event with
  | ask req delay now => exact h.ask req delay now
  | collect now => exact h.collect now
  | cycle now => exact h.cycle now
  | fetch now => exact h.fetch now
  | answer pick delay now => exact h.answer pick delay now

theorem Regular.after (h : b.Regular config f) (events : List Event) :
    (b.after f events).Regular config f := by
  induction events generalizing b with
  | nil => exact h
  | cons event events ih => exact ih (h.step event)

/-! ## Accounts -/

/-- Every response that comes is awaited. -/
theorem Regular.stray_not_mem (h : b.Regular config f) (now : Nat) (rsp : Response) :
    Journal.Event.stray b.cache.name rsp ∉ b.cache.events now b.server.link := by
  have hresponse : Journal.Event.stray b.cache.name rsp
      ∉ b.cache.responseEvents now b.server.link := by
    rw [responseEvents]
    split
    · exact List.not_mem_nil
    · rename_i packet rest hpop
      have hheads : packet.item.question ∈ b.cache.misses.heads := by
        rw [← h.outstanding]
        exact Multiset.mem_add.mpr (.inl (mem_underway_of_pop?_responses hpop))
      obtain ⟨reqs, misses, htake, -⟩ := h.misses.take?_of_mem_heads hheads
      change b.cache.misses.take? packet.item.bufferId = _ at htake
      simp [fillEvents, waitingEvents, htake]
  have hrequest : ∀ c : RangeCache,
      Journal.Event.stray b.cache.name rsp ∉ c.requestEvents now := by
    intro c
    rw [requestEvents]
    split
    · exact List.not_mem_nil
    · rw [accessEvents]
      split
      · simp
      · split <;> simp
  exact fun hmem => (List.mem_append.mp hmem).elim hresponse (hrequest _)

/-- The lookups taken in are those that were answered and those that wait. -/
theorem Regular.coe_taken (h : b.Regular config f) {taken : List Request}
    (htaken : b.asked = taken ++ b.cache.port.requests.items) :
    (↑taken : Multiset Request)
      = ↑(b.answers.map (·.item.question)) + b.cache.misses.waiting := by
  have hpending := h.pending
  have hport : b.cache.port.responses.packets.map (·.item.question)
      = b.cache.port.responses.items.map Response.question := by
    rw [Port.items, List.map_map]
    rfl
  rw [htaken, RangeCache.pending, underway, ← Multiset.coe_add, add_comm (↑taken : Multiset Request),
    add_assoc, add_assoc, add_right_inj] at hpending
  rw [hpending, answers, List.map_append, hport, ← Multiset.coe_add]
  abel

theorem Regular.accounted (h : b.Regular config f) : b.Accounted config f where
  answered := by
    obtain ⟨taken, hasked, hreads⟩ := h.inOrder
    refine ⟨taken, b.answers.map (·.item.question), hasked, hreads, h.coe_taken hasked, ?_⟩
    rw [List.map_map]
    refine List.map_congr_left fun packet hpacket => ?_
    have hentry := h.above packet hpacket
    obtain ⟨⟨tag, entry, uuid, addr, bufferId⟩, sent, ready⟩ := packet
    rw [Function.comp_apply, Request.answer]
    exact congrArg (Response.mk tag · uuid addr bufferId) hentry
  latency := h.latency
  sent now := by
    obtain ⟨new, hnew⟩ := responses_cycle now b.server.link b.cache
    rw [h.configured] at hnew
    exact ⟨new, hnew⟩
  outstanding := by
    rw [h.outstanding]
    exact h.misses.eachOnce_heads
  awaited := h.stray_not_mem
  counted := h.counted
  forwarded := h.forwarded

theorem regular_fresh (name : String) (id : UInt64) (config : CacheConfig)
    (f : BufferId → RangeEntry) :
    ({ cache := .fresh name id config } : Bench).Regular config f where
  configured := rfl
  misses := MissTable.wellFormed_default
  tidy := ⟨List.nodup_nil, fun _ hid => absurd hid List.not_mem_nil⟩
  knows _ hentry := absurd hentry List.not_mem_nil
  above _ hpacket := absurd hpacket List.not_mem_nil
  below := answers_default
  pending := rfl
  inOrder := ⟨[], rfl, rfl⟩
  latency _ hpacket := absurd hpacket List.not_mem_nil
  outstanding := rfl
  counted := ⟨rfl, rfl, rfl⟩
  forwarded := rfl

/-- **A cache answers each lookup once**, whatever is sent to it and whenever it works, above any
server that answers each lookup once. -/
theorem answered_once {name : String} {id : UInt64} {config : CacheConfig} {c : RangeCache}
    (hnew : RangeCache.new name id config = .ok c) (f : BufferId → RangeEntry)
    (events : List Event) :
    (({ cache := c } : Bench).after f events).Accounted config f := by
  have hcapacity : config.capacity ≠ 0 := by
    intro hzero
    rw [RangeCache.new, LineSet.new, if_pos (by rw [hzero]; rfl)] at hnew
    cases hnew
  rw [RangeCache.new_eq_fresh hcapacity] at hnew
  cases hnew
  exact ((regular_fresh name id config f).after events).accounted

/-- A cache with room for one entry, above a server that does not know the buffer `9`.  Of three
lookups of two buffers one is merged; the answers from below come in the other order, one of them
the sentinel.  Two lookups follow, a hit and a miss whose entry evicts the other one. -/
theorem answered_once_of_five :
    ∃ c, RangeCache.new "l1" 0 { capacity := 1 } = .ok c ∧
      (({ cache := c } : Bench).after
        (fun id => if id = 9 then .sentinel else ⟨id, 0x100, 8, false, 0⟩)
        [.ask ⟨0x100, 1, 0, 10⟩ 1 0, .ask ⟨0x200, 9, 1, 11⟩ 1 0, .ask ⟨0x104, 1, 2, 12⟩ 1 0,
          .cycle 1, .cycle 2, .cycle 3, .fetch 3, .fetch 3, .answer 1 1 3, .answer 0 1 3,
          .cycle 4, .cycle 5, .collect 6, .ask ⟨0x100, 1, 3, 13⟩ 1 6, .ask ⟨0x300, 2, 4, 14⟩ 1 6,
          .cycle 7, .cycle 8, .fetch 9, .answer 0 1 9, .cycle 10]).Accounted { capacity := 1 }
            fun id => if id = 9 then .sentinel else ⟨id, 0x100, 8, false, 0⟩ :=
  ⟨_, rfl, answered_once rfl _ _⟩

end Bench

end RangeCache

end BoundsCheck
