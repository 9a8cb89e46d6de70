import BoundsCheck.Proofs.Order

/-!
# The course of a core

Where the traces of a core are, and since when, determines what becomes of them: every part of a core
passes the first trace on that has been with it long enough.  So a core can be followed by the traces
alone, without tags, slots and lookups.

* `Leg`, `Course` — traces on their way, and where all traces of a core are.
* `Course.hit`, `Course.judge`, `Course.ask`, `Course.collect`, `Course.feed` — how they get on.
* `Core.Carries` — a core whose traces are on a given course.
* `Core.Carries.hit`, `Core.Carries.check`, `Core.Carries.exchange` — the core gets on as its course.
* `Core.Carries.miss`, `Core.Carries.fill` — a lookup leaves the core, and its answer comes.
-/

set_option autoImplicit false

namespace BoundsCheck

open Lookup

/-! ## Courses -/

/-- A trace that was sent on in some cycle. -/
structure Leg where
  trace : Trace
  sent : Nat
deriving DecidableEq, Repr

/-- Passes the first trace on that has taken long enough. -/
def passOn (delay now : Nat) (source target : List Leg) : List Leg × List Leg :=
  match source with
  | [] => ([], target)
  | leg :: rest =>
    if leg.sent + delay ≤ now then (rest, target ++ [⟨leg.trace, now⟩]) else (leg :: rest, target)

/-- Either no trace has taken long enough, or the first one is passed on. -/
theorem passOn_cases (delay now : Nat) (source target : List Leg) :
    ((∀ leg ∈ source.head?, now < leg.sent + delay) ∧
      passOn delay now source target = (source, target)) ∨
    ∃ leg rest, source = leg :: rest ∧ leg.sent + delay ≤ now ∧
      passOn delay now source target = (rest, target ++ [⟨leg.trace, now⟩]) := by
  rcases source with _ | ⟨leg, rest⟩
  · exact .inl ⟨fun _ hleg => absurd hleg (Option.not_mem_none _), rfl⟩
  · by_cases hdue : leg.sent + delay ≤ now
    · exact .inr ⟨leg, rest, rfl, hdue, if_pos hdue⟩
    · refine .inl ⟨fun other hother => ?_, if_neg hdue⟩
      cases hother
      exact Nat.lt_of_not_le hdue

/-- Where the traces of a core are, and which entries its cache holds. -/
structure Course where
  /-- Traces the checker has not been given yet. -/
  queue : List Trace := []
  /-- Traces the checker was given. -/
  input : List Leg := []
  /-- Traces for which the cache was asked. -/
  asked : List Leg := []
  /-- The trace for which the cache has passed a lookup on. -/
  waiting : Option (Trace × Request) := none
  /-- Traces for which the cache has answered. -/
  answered : List Leg := []
  /-- Traces that were judged and let go. -/
  output : List Leg := []
  /-- Traces that have gone after that. -/
  gone : List Leg := []
  /-- The buffers whose entries the cache holds. -/
  held : BufferId → Bool

namespace Course

/-- The cache answers the next lookup. -/
def hit (now : Nat) (w : Course) : Course :=
  { w with
    asked := (passOn 1 now w.asked w.answered).1
    answered := (passOn 1 now w.asked w.answered).2 }

/-- The checker judges the next trace that was answered. -/
def judge (c : Config) (now : Nat) (w : Course) : Course :=
  { w with
    answered := (passOn c.l1.hitLatency.toNat now w.answered w.output).1
    output := (passOn c.l1.hitLatency.toNat now w.answered w.output).2 }

/-- The checker asks for the next trace. -/
def ask (now : Nat) (w : Course) : Course :=
  { w with
    input := (passOn 1 now w.input w.asked).1
    asked := (passOn 1 now w.input w.asked).2 }

/-- The traces that were judged before are taken from the checker. -/
def collect (now : Nat) (w : Course) : Course :=
  { w with
    output := w.output.dropWhile (·.sent + 1 ≤ now)
    gone := w.gone ++ w.output.takeWhile (·.sent + 1 ≤ now) }

/-- How many traces the checker has to find room for. -/
def load (w : Course) : Nat :=
  w.asked.length + w.waiting.toList.length + w.answered.length + w.input.length

/-- The checker is given the next trace, if it has room for it. -/
def feed (c : Config) (now : Nat) (w : Course) : Course :=
  match w.queue with
  | [] => w
  | trace :: rest =>
    if w.load < c.checker.queueSize.toNat then
      { w with queue := rest, input := w.input ++ [⟨trace, now⟩] }
    else w

/-- All that happens above the cache in a cycle. -/
def work (c : Config) (now : Nat) (w : Course) : Course :=
  (((w.judge c now).ask now).collect now).feed c now

/-- No trace is left that has not gone. -/
def isDone (w : Course) : Bool :=
  w.queue.isEmpty && w.input.isEmpty && w.asked.isEmpty && w.waiting.isNone && w.answered.isEmpty
    && w.output.isEmpty

end Course

/-- The verdict to expect on a trace that is judged in some cycle. -/
def Config.verdictAt? (c : Config) (resolve : Address → Option BufferId) (leg : Leg) :
    Option Verdict :=
  (c.verdict? resolve leg.trace).map fun v => { v with cycle := leg.sent }

/-! ## Ports -/

namespace Port

variable {α : Type} {whose : α → Option Trace} {delay now : Nat} {legs : List Leg} {p : Port α}

/-- The items on a port belong to traces on their way, and take `delay` cycles. -/
def Bears (whose : α → Option Trace) (delay : Nat) (legs : List Leg) (p : Port α) : Prop :=
  p.packets.map (fun packet => (whose packet.item, packet.sent, packet.ready))
    = legs.map fun leg => (some leg.trace, leg.sent, leg.sent + delay)

theorem Bears.length (h : p.Bears whose delay legs) : p.length = legs.length := by
  have hlength := congrArg List.length h
  rwa [List.length_map, List.length_map] at hlength

theorem Bears.hasPending (h : p.Bears whose delay legs) : p.hasPending = !legs.isEmpty := by
  have hempty := congrArg List.isEmpty h
  rw [List.isEmpty_map, List.isEmpty_map] at hempty
  rw [Port.hasPending, hempty]

theorem bears_default : ({} : Port α).Bears whose delay [] := rfl

theorem Bears.send (h : p.Bears whose delay legs) (item : α) {trace : Trace}
    (hitem : whose item = some trace) (now : Nat) :
    (p.send item delay now).Bears whose delay (legs ++ [⟨trace, now⟩]) := by
  rw [Bears, Port.send, List.map_append, List.map_append, h]
  simp only [List.map_cons, List.map_nil, hitem]

/-- The items may come to belong to their traces in another way. -/
theorem Bears.congr {whose' : α → Option Trace} (h : p.Bears whose delay legs)
    (hsame : ∀ item ∈ p.items, whose' item = whose item) : p.Bears whose' delay legs := by
  refine Eq.trans (List.map_congr_left fun packet hpacket => ?_) h
  rw [hsame packet.item (List.mem_map_of_mem hpacket)]

/-- The first item can be taken out once it has taken long enough. -/
theorem Bears.pop? {leg : Leg} (h : p.Bears whose delay (leg :: legs))
    (hdue : leg.sent + delay ≤ now) :
    ∃ packet rest, p.pop? now = some (packet, rest) ∧ whose packet.item = some leg.trace ∧
      rest.Bears whose delay legs := by
  obtain ⟨packet, packets, hpackets, hpacket, hrest⟩ := List.map_eq_cons_iff.mp h
  rw [Prod.mk.injEq, Prod.mk.injEq] at hpacket
  obtain ⟨hwhose, -, hready⟩ := hpacket
  refine ⟨packet, ⟨packets⟩, pop?_eq_some_iff.mpr ⟨hpackets, ?_⟩, hwhose, hrest⟩
  rw [hready]
  exact hdue

theorem Bears.pop?_eq_none (h : p.Bears whose delay legs)
    (hdue : ∀ leg ∈ legs.head?, now < leg.sent + delay) : p.pop? now = none := by
  rcases legs with _ | ⟨leg, legs⟩
  · rw [Port.pop?, List.map_eq_nil_iff.mp h]
  · obtain ⟨packet, packets, hpackets, hpacket, -⟩ := List.map_eq_cons_iff.mp h
    rw [Prod.mk.injEq, Prod.mk.injEq] at hpacket
    have hlate : ¬ packet.ready ≤ now := by
      rw [hpacket.2.2]
      exact Nat.not_le_of_lt (hdue leg rfl)
    rw [Port.pop?, hpackets]
    exact if_neg hlate

/-- All items in front that have taken long enough can be taken out at once. -/
theorem Bears.drain (h : p.Bears whose delay legs) (now : Nat) :
    (p.drain now).2.Bears whose delay (legs.dropWhile (·.sent + delay ≤ now)) := by
  have hdrop := congrArg (List.dropWhile fun entry => decide (entry.2.2 ≤ now)) h
  rw [List.dropWhile_map, List.dropWhile_map] at hdrop
  exact hdrop

end Port

/-! ## A cycle of a cache -/

namespace RangeCache

variable {cache : RangeCache} {lower : Lookup.Link} {now : Nat}

/-- A cache that takes in no response goes on with the next lookup. -/
theorem cycle_of_responses (hresponses : lower.responses.pop? now = none) :
    cache.cycle now lower = cache.countWaiting.takeRequest now lower := by
  have hresponse : cache.countWaiting.takeResponse now lower = (cache.countWaiting, lower) := by
    rw [takeResponse, hresponses]
  rw [cycle_eq, hresponse]

/-- A cache to which nothing is visible only counts how long it waits. -/
theorem cycle_of_idle (hresponses : lower.responses.pop? now = none)
    (hrequests : cache.port.requests.pop? now = none) :
    cache.cycle now lower = (cache.countWaiting, lower) := by
  have hrequests' : cache.countWaiting.port.requests.pop? now = none := hrequests
  rw [cycle_of_responses hresponses, takeRequest, hrequests']

/-- A lookup of a buffer whose entry is held is answered. -/
theorem cycle_of_held (hresponses : lower.responses.pop? now = none) {packet : Packet Request}
    {rest : Port Request} (hpop : cache.port.requests.pop? now = some (packet, rest))
    {entry : RangeEntry} (hget : cache.lines.get? packet.item.bufferId = some entry) :
    cache.cycle now lower
      = ((cache.countWaiting.taken now packet rest).hit now packet.item entry, lower) := by
  have hget' : (cache.countWaiting.taken now packet rest).lines.get? packet.item.bufferId
    = some entry := hget
  rw [cycle_of_responses hresponses, takeRequest_of_pop? (c := cache.countWaiting) hpop, access,
    hget']

/-- A lookup of another buffer is passed on, if nobody waits. -/
theorem cycle_of_missing (hresponses : lower.responses.pop? now = none) {packet : Packet Request}
    {rest : Port Request} (hpop : cache.port.requests.pop? now = some (packet, rest))
    (hnot : cache.lines.contains packet.item.bufferId = false) (hmisses : cache.misses = {}) :
    cache.cycle now lower
      = ((cache.countWaiting.taken now packet rest).readMiss packet.item,
        lower.request packet.item cache.config.forwardingLatency.toNat now) := by
  have hget : (cache.countWaiting.taken now packet rest).lines.get? packet.item.bufferId = none := by
    rw [LineSet.contains, Option.isSome_eq_false_iff, Option.isNone_iff_eq_none] at hnot
    exact hnot
  have hmerges : (cache.countWaiting.taken now packet rest).misses.merges packet.item = false := by
    show cache.misses.merges packet.item = false
    rw [hmisses]
    rfl
  rw [cycle_of_responses hresponses, takeRequest_of_pop? (c := cache.countWaiting) hpop, access,
    hget, hmerges]
  rfl

/-- A response answers the lookup that waits for it. -/
theorem cycle_of_response {packet : Packet Response} {rest : Port Response}
    (hpop : lower.responses.pop? now = some (packet, rest))
    (hrequests : cache.port.requests.pop? now = none) {req : Request}
    (hmisses : cache.misses = ⟨[⟨packet.item.bufferId, [req]⟩]⟩) :
    cache.cycle now lower
      = ({ cache.countWaiting.keep packet.item with
          misses := {}
          port := cache.port.respond (req.answer packet.item.entry)
            cache.config.hitLatency.toNat now },
        { lower with responses := rest }) := by
  have htake : (cache.countWaiting.keep packet.item).misses.take? packet.item.bufferId
      = some ([req], {}) := by
    rw [misses_keep]
    show cache.misses.take? packet.item.bufferId = _
    rw [hmisses]
    simp [MissTable.take?, MissTable.get?]
  have hresponse : cache.countWaiting.takeResponse now lower
      = ({ cache.countWaiting.keep packet.item with
          misses := {}
          port := cache.port.respond (req.answer packet.item.entry)
            cache.config.hitLatency.toNat now },
        { lower with responses := rest }) := by
    simp only [takeResponse, hpop, fill, answerWaiting, htake, port_keep, config_keep]
    rfl
  have hrequests' : (cache.port.respond (req.answer packet.item.entry)
      cache.config.hitLatency.toNat now).requests.pop? now = none := hrequests
  rw [cycle_eq, hresponse, takeRequest, hrequests']

end RangeCache

/-! ## Cores on a course -/

theorem Lookup.mem_underway_of_mem_requests {l : Lookup.Link} {req : Request}
    (h : req ∈ l.requests.items) : req ∈ underway l :=
  Multiset.mem_add.mpr (.inl (Multiset.mem_coe.mpr h))

theorem Lookup.mem_underway_of_mem_responses {l : Lookup.Link} {rsp : Response}
    (h : rsp ∈ l.responses.items) : rsp.question ∈ underway l :=
  Multiset.mem_add.mpr (.inr (Multiset.mem_coe.mpr (List.mem_map_of_mem h)))

/-- Using an entry does not change which entries are held. -/
theorem LineSet.contains_touch (s : LineSet) (id other : BufferId) :
    (s.touch id).contains other = s.contains other := by
  rw [touch]
  split
  · rfl
  · split
    · rfl
    · rename_i entry hget
      have hid : entry.bufferId = id := by simpa using List.find?_some hget
      have hmem : entry ∈ s.lines := List.mem_of_find?_eq_some hget
      rw [Bool.eq_iff_iff, contains_iff, contains_iff, ids, ids, List.map_append, List.mem_append]
      constructor
      · rintro (hold | hnew)
        · exact List.map_subset _ (List.filter_subset_self _) hold
        · rw [List.mem_singleton.mp hnew]
          exact List.mem_map_of_mem hmem
      · intro hold
        by_cases heq : other = id
        · rw [heq, ← hid]
          exact .inr (List.mem_singleton_self _)
        · obtain ⟨line, hline, rfl⟩ := List.mem_map.mp hold
          exact .inl (List.mem_map_of_mem (List.mem_filter.mpr ⟨hline, by simpa using heq⟩))

/-- The traces of a core are on the given course.  Verdicts that were noted before stay in front. -/
structure Core.Carries (c : Config) (resolver : Resolver) (k : Nat) (earlier : List Verdict)
    (w : Course) (core : Core) : Prop where
  shaped : core.Shaped c resolver k
  sound : core.checker.Sound core.l1.pending
  knows : core.l1.Knows c.answerFor
  answers : Answers c.answerFor core.l1.port
  queue : core.queue = w.queue
  input : core.checker.input.Bears some 1 w.input
  asked : core.l1.port.requests.Bears core.checker.asker? 1 w.asked
  misses : core.l1.misses.misses = w.waiting.toList.map fun miss => ⟨miss.2.bufferId, [miss.2]⟩
  waiting : ∀ miss ∈ w.waiting, core.checker.asker? miss.2 = some miss.1
  answered : core.l1.port.responses.Bears (fun rsp => core.checker.asker? rsp.question)
    c.l1.hitLatency.toNat w.answered
  output : core.checker.output.Bears some 1 w.output
  held : ∀ id, core.l1.lines.contains id = w.held id
  verdicts : core.checker.verdicts
    = earlier ++ (w.gone ++ w.output).filterMap (c.verdictAt? resolver.resolve)

namespace Core

variable {c : Config} {resolver : Resolver} {k now : Nat} {earlier : List Verdict} {w : Course}
  {core : Core} {lower : Lookup.Link}

theorem Carries.wellFormed (h : core.Carries c resolver k earlier w) :
    core.l1.misses.WellFormed := by
  have htable := congrArg MissTable.mk h.misses
  change core.l1.misses = _ at htable
  rw [htable]
  rcases w.waiting with _ | ⟨trace, req⟩
  · exact MissTable.wellFormed_default
  · exact MissTable.wellFormed_default.add req

theorem Carries.mem_waiting (h : core.Carries c resolver k earlier w) {miss : Trace × Request}
    (hmiss : miss ∈ w.waiting) : miss.2 ∈ core.l1.misses.waiting := by
  rw [MissTable.waiting, h.misses, hmiss]
  exact Multiset.mem_singleton_self _

/-- The trace for which a lookup is pending concerns the buffer of the lookup. -/
theorem Carries.concerns (h : core.Carries c resolver k earlier w) {req : Request}
    (hreq : req ∈ core.l1.pending) {trace : Trace} (htrace : core.checker.asker? req = some trace)
    (id : BufferId) : trace.concerns resolver.resolve id = decide (req.bufferId = id) := by
  obtain ⟨slot, hslot, -, hq⟩ := h.sound.exists_slot hreq
  rw [Checker.asker?, hslot, Option.map_some, Option.some.injEq] at htrace
  rw [htrace, h.shaped.resolve] at hq
  exact Checker.concerns_of_question? hq id

/-- The slots of the checker are in use for the traces that wait for their answers. -/
theorem Carries.used (h : core.Carries c resolver k earlier w) :
    core.checker.slots.used
      = w.asked.length + w.waiting.toList.length + w.answered.length := by
  have hcard := congrArg Multiset.card h.sound.outstanding
  have hwaiting : core.l1.misses.waiting.card = w.waiting.toList.length := by
    rw [MissTable.waiting, h.misses, List.flatMap_map, Multiset.coe_card]
    rcases w.waiting with _ | miss
    · rfl
    · rfl
  rw [Checker.outstanding, Multiset.card_map, Multiset.card_map, ← h.sound.slots.used,
    RangeCache.pending, Multiset.card_add, underway, Multiset.card_add, Multiset.coe_card,
    Multiset.coe_card, List.length_map, Port.length_items, Port.length_items, h.asked.length,
    h.answered.length, hwaiting] at hcard
  omega

/-- A core is busy until all its traces have gone. -/
theorem Carries.busy (h : core.Carries c resolver k earlier w) : core.busy = !w.isDone := by
  have hslots : core.checker.slots.isEmpty
      = (w.asked.isEmpty && w.waiting.isNone && w.answered.isEmpty) := by
    rw [SlotTable.isEmpty, h.used, Bool.eq_iff_iff, beq_iff_eq]
    rcases w.asked with _ | _ <;> rcases w.waiting with _ | _ <;>
      rcases w.answered with _ | _ <;> simp
  have hmisses : core.l1.misses.isEmpty = w.waiting.isNone := by
    rw [MissTable.isEmpty, h.misses]
    rcases w.waiting with _ | _ <;> rfl
  rw [Core.busy, Checker.busy, RangeCache.busy, Link.hasPending, h.queue, h.input.hasPending, hslots,
    h.output.hasPending, h.asked.hasPending, h.answered.hasPending, hmisses, Course.isDone]
  rcases w.queue.isEmpty <;> rcases w.input.isEmpty <;> rcases w.asked.isEmpty <;>
    rcases w.waiting.isNone <;> rcases w.answered.isEmpty <;> rcases w.output.isEmpty <;> rfl

/-! ### The cache -/

/-- The cache answers the next lookup, if all lookups are of buffers whose entries it holds. -/
theorem Carries.hit (h : core.Carries c resolver k earlier w)
    (hlower : lower.responses.pop? now = none)
    (hheld : ∀ leg ∈ w.asked, ∃ id, leg.trace.concerns resolver.resolve id = true ∧
      w.held id = true) :
    (core.cycleCache now lower).1.Carries c resolver k earlier (w.hit now) ∧
      (core.cycleCache now lower).2 = lower := by
  have hshaped := h.shaped.cycleCache now lower
  have hsound : core.checker.Sound (core.l1.cycle now lower).1.pending := by
    rw [RangeCache.pending_cycle h.wellFormed]
    exact h.sound
  rw [Core.cycleCache] at hshaped ⊢
  rcases passOn_cases 1 now w.asked w.answered with ⟨hidle, hpass⟩ | ⟨leg, rest, hasked, hdue, hpass⟩
  · have hrequests := h.asked.pop?_eq_none hidle
    rw [RangeCache.cycle_of_idle hlower hrequests] at hshaped hsound ⊢
    rw [Course.hit, hpass]
    exact ⟨⟨hshaped, hsound, h.knows, h.answers, h.queue, h.input, h.asked, h.misses, h.waiting,
      h.answered, h.output, h.held, h.verdicts⟩, rfl⟩
  · have hbears := h.asked
    rw [hasked] at hbears
    obtain ⟨packet, others, hpop, hwhose, hothers⟩ := hbears.pop? hdue
    have hpending : packet.item ∈ core.l1.pending :=
      Multiset.mem_add.mpr (.inl (mem_underway_of_pop?_requests hpop))
    obtain ⟨id, hconcerns, hid⟩ := hheld leg (by rw [hasked]; exact List.mem_cons_self)
    rw [h.concerns hpending hwhose, decide_eq_true_eq] at hconcerns
    rw [← hconcerns, ← h.held, LineSet.contains, Option.isSome_iff_exists] at hid
    obtain ⟨entry, hget⟩ := hid
    rw [RangeCache.cycle_of_held hlower hpop hget] at hshaped hsound ⊢
    rw [Course.hit, hpass]
    have hanswered := h.answered.send (packet.item.answer entry) hwhose now
    rw [← h.shaped.l1] at hanswered
    refine ⟨⟨hshaped, hsound, fun other hother => h.knows other (RangeCache.mem_lines_touch hother),
      h.answers.respond (h.knows.get? hget) _ now, h.queue, h.input, hothers, h.misses, h.waiting,
      ?_, h.output, fun other => ?_, h.verdicts⟩, rfl⟩
    · rw [← h.shaped.l1]
      exact hanswered
    · exact (LineSet.contains_touch _ _ _).trans (h.held other)

/-- The only lookup is passed on, if it is of a buffer whose entry the cache does not hold. -/
theorem Carries.miss (h : core.Carries c resolver k earlier w)
    (hlower : lower.responses.pop? now = none) {leg : Leg} (hasked : w.asked = [leg])
    (hdue : leg.sent + 1 ≤ now) (hwaiting : w.waiting = none) {id : BufferId}
    (hconcerns : leg.trace.concerns resolver.resolve id = true) (hnot : w.held id = false) :
    ∃ req : Request, req.bufferId = id ∧
      (core.cycleCache now lower).1.Carries c resolver k earlier
        { w with asked := [], waiting := some (leg.trace, req) } ∧
      (core.cycleCache now lower).2 = lower.request req c.l1.forwardingLatency.toNat now := by
  have hshaped := h.shaped.cycleCache now lower
  have hsound : core.checker.Sound (core.l1.cycle now lower).1.pending := by
    rw [RangeCache.pending_cycle h.wellFormed]
    exact h.sound
  have hmisses : core.l1.misses = {} := by
    have hlist := h.misses
    rw [hwaiting] at hlist
    exact congrArg MissTable.mk hlist
  have hbears := h.asked
  rw [hasked] at hbears
  obtain ⟨packet, others, hpop, hwhose, hothers⟩ := hbears.pop? hdue
  have hpending : packet.item ∈ core.l1.pending :=
    Multiset.mem_add.mpr (.inl (mem_underway_of_pop?_requests hpop))
  rw [h.concerns hpending hwhose, decide_eq_true_eq] at hconcerns
  rw [← hconcerns, ← h.held] at hnot
  rw [Core.cycleCache] at hshaped ⊢
  rw [RangeCache.cycle_of_missing hlower hpop hnot hmisses] at hshaped hsound ⊢
  refine ⟨packet.item, hconcerns, ⟨hshaped, hsound, h.knows, h.answers, h.queue, h.input, hothers,
    ?_, ?_, h.answered, h.output, h.held, h.verdicts⟩, ?_⟩
  · show (core.l1.misses.add packet.item).misses = _
    rw [hmisses]
    rfl
  · rintro _ ⟨⟩
    exact hwhose
  · rw [h.shaped.l1]

/-- The tag of a lookup that was passed on is that of a slot. -/
theorem Carries.tag_lt (h : core.Carries c resolver k earlier w) {trace : Trace} {req : Request}
    (hwaiting : w.waiting = some (trace, req)) :
    req.tag.toNat < c.checker.queueSize.toNat := by
  have hasker := h.waiting _ hwaiting
  obtain ⟨slot, hslot, -⟩ := Option.map_eq_some_iff.mp hasker
  have hlt := SlotTable.toNat_lt_capacity hslot
  rwa [← Checker.capacity, h.shaped.capacity] at hlt

/-- The trace whose lookup was passed on is answered when the answer comes. -/
theorem Carries.fill (h : core.Carries c resolver k earlier w) {packet : Packet Response}
    {rest : Port Response} (hpop : lower.responses.pop? now = some (packet, rest)) {trace : Trace}
    {req : Request} (hwaiting : w.waiting = some (trace, req)) (hasked : w.asked = [])
    (hitem : packet.item = req.answer (c.answerFor req.bufferId)) :
    ∃ held, (core.cycleCache now lower).1.Carries c resolver k earlier
        { w with
          waiting := none
          answered := w.answered ++ [⟨trace, now⟩]
          held := held } ∧
      (core.cycleCache now lower).2 = { lower with responses := rest } := by
  have hshaped := h.shaped.cycleCache now lower
  have hsound : core.checker.Sound (core.l1.cycle now lower).1.pending := by
    rw [RangeCache.pending_cycle h.wellFormed]
    exact h.sound
  have hbuffer : packet.item.bufferId = req.bufferId := by
    rw [hitem]
    rfl
  have hentry : packet.item.entry = c.answerFor packet.item.bufferId := by
    rw [hbuffer, hitem]
    rfl
  have hmisses : core.l1.misses = ⟨[⟨packet.item.bufferId, [req]⟩]⟩ := by
    have hlist := h.misses
    rw [hwaiting] at hlist
    rw [hbuffer]
    exact congrArg MissTable.mk hlist
  have hrequests : core.l1.port.requests.pop? now = none :=
    h.asked.pop?_eq_none fun leg hleg => by
      rw [hasked] at hleg
      cases hleg
  rw [Core.cycleCache] at hshaped ⊢
  rw [RangeCache.cycle_of_response hpop hrequests hmisses] at hshaped hsound ⊢
  refine ⟨fun id => (core.l1.countWaiting.keep packet.item).lines.contains id, ⟨hshaped, hsound,
    h.knows.keep (c := core.l1.countWaiting) hentry, h.answers.respond ?_ _ now, h.queue, h.input,
    h.asked, rfl, fun _ hmiss => absurd hmiss (Option.not_mem_none _), ?_, h.output, fun _ => rfl,
    h.verdicts⟩, rfl⟩
  · rw [hentry, hbuffer]
    rfl
  · rw [← h.shaped.l1]
    have hanswered := h.answered.send (req.answer packet.item.entry) (h.waiting _ hwaiting) now
    rw [← h.shaped.l1] at hanswered
    exact hanswered

/-! ### The checker -/

/-- The checker judges the next trace that was answered. -/
theorem Carries.judge (h : core.Carries c resolver k earlier w) (hc : c.Accepted) (now : Nat) :
    ∃ next, core.checker.takeResponse now core.l1.port = .ok next ∧
      (core.checked next).Carries c resolver k earlier (w.judge c now) := by
  rcases passOn_cases c.l1.hitLatency.toNat now w.answered w.output with
    ⟨hidle, hpass⟩ | ⟨leg, rest, hanswered, hdue, hpass⟩
  · have hnone := h.answered.pop?_eq_none hidle
    refine ⟨(core.checker, core.l1.port), by rw [Checker.takeResponse, hnone], ?_⟩
    rw [Course.judge, hpass]
    exact h
  · have hbears := h.answered
    rw [hanswered] at hbears
    obtain ⟨packet, others, hpop, hwhose, hothers⟩ := hbears.pop? hdue
    have hsplit : core.l1.pending = {packet.item.question}
        + (underway { core.l1.port with responses := others } + core.l1.misses.waiting) := by
      rw [RangeCache.pending, underway_of_pop?_responses hpop, add_assoc]
    have hmem : packet.item.question ∈ core.l1.pending := by
      rw [hsplit]
      exact Multiset.mem_add.mpr (.inl (Multiset.mem_singleton_self _))
    obtain ⟨slot, hslot, hone, -⟩ := h.sound.exists_slot hmem
    change core.checker.slots.get? packet.item.tag = some slot at hslot
    have htrace : slot.trace = leg.trace := by
      have hasker : core.checker.asker? packet.item.question = some slot.trace := by
        show (core.checker.slots.get? packet.item.tag).map _ = _
        rw [hslot, Option.map_some]
      exact Option.some.inj (hasker.symm.trans hwhose)
    -- no other lookup has the tag of this one
    have hothers' : ∀ req ∈ underway { core.l1.port with responses := others }
        + core.l1.misses.waiting,
        (core.checker.settle now packet.item slot.trace).asker? req = core.checker.asker? req := by
      intro req hreq
      have hnd := h.sound.nodup_tags
      rw [hsplit, Multiset.map_add, Multiset.map_singleton, Multiset.singleton_add,
        Multiset.nodup_cons] at hnd
      refine Checker.asker?_settle h.sound hslot ?_ ?_ slot.trace
      · rw [hsplit]
        exact Multiset.mem_add.mpr (.inr hreq)
      · exact fun heq => hnd.1 (Multiset.mem_map.mpr ⟨req, hreq, heq⟩)
    have hmove : Checker.Move now (core.checker, core.l1.port) _ := .settle hpop hslot hone
    refine ⟨(core.checker.settle now packet.item slot.trace,
      { core.l1.port with responses := others }), ?_, ?_⟩
    · rw [Checker.takeResponse, hpop]
      simp only [Checker.complete_eq hslot hone]
      rfl
    · rw [Course.judge, hpass]
      refine ⟨h.shaped.checked (.single hmove), h.sound.settle hpop hslot, h.knows,
        (h.answers.pop? hpop).2, h.queue, h.input, h.asked.congr fun req hreq => ?_, h.misses,
        fun miss hmiss => ?_, hothers.congr fun rsp hrsp => ?_,
        h.output.send slot.trace (congrArg some htrace) now, h.held, ?_⟩
      · exact hothers' req (Multiset.mem_add.mpr (.inl (mem_underway_of_mem_requests hreq)))
      · exact (hothers' miss.2 (Multiset.mem_add.mpr (.inr (h.mem_waiting hmiss)))).trans
          (h.waiting miss hmiss)
      · exact hothers' rsp.question
          (Multiset.mem_add.mpr (.inl (mem_underway_of_mem_responses hrsp)))
      · have hverdict : c.verdict? core.checker.resolve slot.trace
            = some (Checker.verdictOf now packet.item slot.trace).timeless :=
          Checker.verdict?_of_pop? hc h.sound h.answers hpop hslot
        rw [h.shaped.resolve, htrace] at hverdict
        have hlast : c.verdictAt? resolver.resolve ⟨leg.trace, now⟩
            = some (Checker.verdictOf now packet.item slot.trace) := by
          rw [Config.verdictAt?, hverdict, htrace]
          rfl
        have hjudged : (w.gone ++ (w.output ++ [(⟨leg.trace, now⟩ : Leg)])).filterMap
            (c.verdictAt? resolver.resolve)
            = (w.gone ++ w.output).filterMap (c.verdictAt? resolver.resolve)
              ++ [Checker.verdictOf now packet.item slot.trace] := by
          rw [← List.append_assoc, List.filterMap_append, List.filterMap_cons_some hlast,
            List.filterMap_nil]
        show core.checker.verdicts ++ [Checker.verdictOf now packet.item slot.trace] = _
        rw [h.verdicts, hjudged, List.append_assoc]

/-- The checker asks for the next trace, if its address belongs to a buffer. -/
theorem Carries.ask (h : core.Carries c resolver k earlier w)
    (hknown : ∀ leg ∈ w.input, ∃ id, leg.trace.concerns resolver.resolve id = true) (now : Nat) :
    ∃ next, core.checker.issue now core.l1.port = .ok next ∧
      (core.checked next).Carries c resolver k earlier (w.ask now) := by
  rcases passOn_cases 1 now w.input w.asked with ⟨hidle, hpass⟩ | ⟨leg, rest, hinput, hdue, hpass⟩
  · have hnone := h.input.pop?_eq_none hidle
    refine ⟨(core.checker, core.l1.port), by rw [Checker.issue, hnone], ?_⟩
    rw [Course.ask, hpass]
    exact h
  · have hbears := h.input
    rw [hinput] at hbears
    obtain ⟨packet, others, hpop, hwhose, hothers⟩ := hbears.pop? hdue
    have htrace : packet.item = leg.trace := Option.some.inj hwhose
    obtain ⟨id, hid⟩ := hknown leg (by rw [hinput]; exact List.mem_cons_self)
    rw [← htrace, Trace.concerns, Option.any_eq_true] at hid
    obtain ⟨access, haccess, hid⟩ := hid
    rw [beq_iff_eq, ← h.shaped.resolve] at hid
    have hroom : core.checker.slots.used < core.checker.slots.capacity := by
      have hroom := h.sound.room
      have hlength := Port.length_of_pop? hpop
      simp only [Checker.inFlight, Checker.capacity] at hroom
      omega
    obtain ⟨tag, slots, halloc⟩ := h.sound.slots.exists_allocate hroom ⟨packet.item, 1⟩
    have hmove : Checker.Move now (core.checker, core.l1.port) _ := .ask hpop haccess hid halloc
    obtain ⟨hnew, hkept⟩ := Checker.asker?_asked h.sound halloc others
    refine ⟨(core.checker.asked slots others,
      core.l1.port.request (Checker.requestFor packet.item access.addr id tag) 1 now), ?_, ?_⟩
    · simp only [Checker.issue, hpop, haccess, hid, Checker.lookUp, halloc]
      rfl
    · rw [Course.ask, hpass]
      refine ⟨h.shaped.checked (.single hmove), h.sound.asked hpop haccess hid halloc, h.knows,
        h.answers, h.queue, hothers, (h.asked.congr fun req hreq => ?_).send _ ?_ now, h.misses,
        fun miss hmiss => ?_, h.answered.congr fun rsp hrsp => ?_, h.output, h.held, h.verdicts⟩
      · exact hkept req (Multiset.mem_add.mpr (.inl (mem_underway_of_mem_requests hreq)))
      · rw [← htrace]
        exact hnew _ rfl
      · exact (hkept miss.2 (Multiset.mem_add.mpr (.inr (h.mem_waiting hmiss)))).trans
          (h.waiting miss hmiss)
      · exact hkept rsp.question (Multiset.mem_add.mpr (.inl (mem_underway_of_mem_responses hrsp)))

/-- **The checker gets on as its course**, if the addresses of its traces belong to buffers. -/
theorem Carries.check (h : core.Carries c resolver k earlier w) (hc : c.Accepted)
    (hknown : ∀ leg ∈ w.input, ∃ id, leg.trace.concerns resolver.resolve id = true) (now : Nat) :
    (core.checked (core.checker.cycle now core.l1.port).state).Carries c resolver k earlier
      ((w.judge c now).ask now) := by
  obtain ⟨first, hfirst, hjudged⟩ := h.judge hc now
  obtain ⟨second, hsecond, hasked⟩ := hjudged.ask hknown now
  rw [Checker.cycle_of_takeResponse hfirst]
  change first.1.issue now first.2 = .ok second at hsecond
  rw [hsecond]
  exact hasked

/-! ### The exchange of traces -/

theorem Carries.collect (h : core.Carries c resolver k earlier w) (now : Nat) :
    (core.collect now).Carries c resolver k earlier (w.collect now) := by
  refine ⟨⟨h.shaped.id, h.shaped.config, h.shaped.resolve, h.shaped.capacity, h.shaped.l1⟩,
    ⟨h.sound.slots, h.sound.outstanding, h.sound.single, h.sound.room⟩, h.knows, h.answers, h.queue,
    h.input, h.asked, h.misses, h.waiting, h.answered, h.output.drain now, h.held, ?_⟩
  show core.checker.verdicts = _
  rw [h.verdicts, Course.collect, List.append_assoc, List.takeWhile_append_dropWhile]

/-- The checker counts the traces that it has to find room for. -/
theorem Carries.hasRoom (h : core.Carries c resolver k earlier w) :
    core.checker.hasRoom = decide (w.load < c.checker.queueSize.toNat) := by
  rw [Checker.hasRoom, Checker.inFlight, h.used, h.input.length, h.shaped.capacity, Course.load]

theorem Carries.feed (h : core.Carries c resolver k earlier w) (now : Nat) :
    (core.feed now).Carries c resolver k earlier (w.feed c now) := by
  rw [Core.feed, entering?, h.hasRoom, h.queue, Course.feed]
  rcases hqueue : w.queue with _ | ⟨trace, rest⟩
  · rw [List.head?_nil, ite_self]
    exact h
  · by_cases hroom : w.load < c.checker.queueSize.toNat
    · rw [decide_eq_true hroom]
      simp only [if_true, hroom, List.head?_cons, List.tail_cons]
      have hfree := h.hasRoom
      rw [decide_eq_true hroom, Checker.hasRoom, decide_eq_true_eq] at hfree
      refine ⟨⟨h.shaped.id, h.shaped.config, h.shaped.resolve, h.shaped.capacity, h.shaped.l1⟩,
        ⟨h.sound.slots, h.sound.outstanding, h.sound.single, ?_⟩, h.knows, h.answers, rfl,
        h.input.send trace rfl now, h.asked, h.misses, h.waiting, h.answered, h.output, h.held,
        h.verdicts⟩
      show core.checker.inFlight + (core.checker.input.send trace 1 now).length ≤ _
      rw [← Port.length_items, Port.items_send, List.length_append, Port.length_items]
      exact hfree
    · rw [decide_eq_false hroom]
      simp only [hroom, if_false, Bool.false_eq_true]
      exact h

/-- **Traces are exchanged with the checker as its course says.** -/
theorem Carries.exchange (h : core.Carries c resolver k earlier w) (now : Nat) :
    (core.exchange now).Carries c resolver k earlier ((w.collect now).feed c now) :=
  (h.collect now).feed now

end Core

end BoundsCheck
