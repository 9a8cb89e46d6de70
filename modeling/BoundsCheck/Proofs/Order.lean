import BoundsCheck.Proofs.InFlight
import BoundsCheck.Proofs.Lines
import BoundsCheck.Proofs.Verdicts

/-!
# Program order

The traces of a core overtake each other: one whose entry is held passes all that wait for theirs.
Yet two traces that concern the same buffer never do.  Read from the answers of a cache over its
misses to its questions, the lookups for one buffer stand in a line, and a cycle of the cache leaves
this line as it is: whoever waits at a miss is answered before anybody behind, and whoever finds an
entry has nobody of its buffer in front, because a cache does not hold an entry that it waits for.

* `RangeCache.lookups`, `RangeCache.filter_lookups_cycle` — the line, and that it stays.
* `Checker.InOrder` — the traces pushed for a buffer are those that have gone, those in the line and
  those still to be looked up, in this order.
* `Checker.InOrder.move` — every move of a checker keeps them in order.
* `Drive.program_order` — a core completes and judges the traces for a buffer as they were pushed.
-/

set_option autoImplicit false

namespace BoundsCheck

open Lookup

/-- The trace concerns the buffer: the address of its first access belongs to it. -/
def Trace.concerns (resolve : Address → Option BufferId) (id : BufferId) (t : Trace) : Bool :=
  t.firstAccess?.any fun access => resolve access.addr == some id

/-! ## The lookups for a buffer stand in a line -/

namespace Lookup

/-- The lookups on a link and those beyond it: the answered ones first, the latest questions last. -/
def inLine (l : Link) (beyond : List Request) : List Request :=
  l.responses.items.map Response.question ++ beyond ++ l.requests.items

theorem coe_inLine (l : Link) (beyond : List Request) :
    (↑(inLine l beyond) : Multiset Request) = underway l + ↑beyond := by
  rw [inLine, underway, ← Multiset.coe_add, ← Multiset.coe_add]
  abel

/-- The next answer is the first in the line. -/
theorem inLine_of_pop? {l : Link} {now : Nat} {packet : Packet Response} {rest : Port Response}
    (h : l.responses.pop? now = some (packet, rest)) (beyond : List Request) :
    inLine l beyond = packet.item.question :: inLine { l with responses := rest } beyond := by
  rw [inLine, Port.items_of_pop? h]
  rfl

/-- A new question is the last in the line. -/
theorem inLine_request (l : Link) (req : Request) (delay now : Nat) (beyond : List Request) :
    inLine (l.request req delay now) beyond = inLine l beyond ++ [req] := by
  rw [inLine, inLine, Link.request, Port.items_send, List.append_assoc _ _ [req]]

end Lookup

namespace RangeCache

/-- The lookups that a cache still owes an answer, or whose answer has not been taken off its port,
those for one buffer in the order in which they came. -/
def lookups (c : RangeCache) : List Request := inLine c.port c.misses.inTurn

variable {c : RangeCache} {now : Nat} {lower : Lookup.Link}

/-- Whoever waited is answered behind all that were answered before, and before all others. -/
theorem filter_lookups_answerWaiting (h : c.misses.WellFormed) (now : Nat) (rsp : Response)
    (id : BufferId) :
    (c.answerWaiting now rsp).lookups.filter (·.bufferId = id)
      = c.lookups.filter (·.bufferId = id) := by
  rw [answerWaiting]
  split
  · rfl
  · rename_i waiting misses htake
    have hanswers : (waiting.map (·.answer rsp.entry)).map Response.question = waiting := by
      rw [List.map_map]
      exact List.map_id waiting
    have hturn := h.filter_inTurn_of_take? htake id
    simp only [lookups, inLine, Port.items_sendAll, List.map_append, hanswers, List.filter_append,
      hturn, List.append_assoc]

theorem filter_lookups_takeResponse (h : c.misses.WellFormed) (now : Nat) (lower : Lookup.Link)
    (id : BufferId) :
    (c.takeResponse now lower).1.lookups.filter (·.bufferId = id)
      = c.lookups.filter (·.bufferId = id) := by
  rw [takeResponse]
  split
  · rfl
  · rename_i packet rest hpop
    rw [fill, filter_lookups_answerWaiting (by rwa [misses_keep])]
    simp only [lookups, port_keep, misses_keep]

/-- Whoever is answered at once has nobody of its buffer in front that still waits. -/
theorem filter_lookups_hit (h : c.misses.WellFormed) (htidy : c.Tidy) (now : Nat) {req : Request}
    (hheld : req.bufferId ∈ c.lines.ids) (entry : RangeEntry) {rest : Port Request}
    (hrest : c.port.requests.items = req :: rest.items) (id : BufferId) :
    ({ c with port.requests := rest }.hit now req entry).lookups.filter (·.bufferId = id)
      = c.lookups.filter (·.bufferId = id) := by
  have hline : ({ c with port.requests := rest }.hit now req entry).lookups
      = c.port.responses.items.map Response.question ++ [req] ++ c.misses.inTurn ++ rest.items := by
    simp [lookups, inLine, hit, Link.respond]
  rw [hline, lookups, inLine, hrest]
  by_cases hid : req.bufferId = id
  · have hnone : c.misses.inTurn.filter (·.bufferId = id) = [] := by
      rw [← hid]
      exact h.filter_inTurn_eq_nil (htidy.apart _ hheld)
    simp [List.filter_append, hnone, hid]
  · simp [List.filter_append, hid]

/-- Whoever has to wait does so behind all others of its buffer. -/
theorem filter_lookups_wait (h : c.misses.WellFormed) {req : Request} {rest : Port Request}
    (hrest : c.port.requests.items = req :: rest.items) (id : BufferId) :
    ((inLine { c.port with requests := rest } (c.misses.add req).inTurn).filter (·.bufferId = id))
      = c.lookups.filter (·.bufferId = id) := by
  have hturn := h.filter_inTurn_add req id
  have hcons : req :: rest.items = [req] ++ rest.items := rfl
  simp only [lookups, inLine, List.filter_append, hturn, hrest, hcons, List.append_assoc]

theorem filter_lookups_takeRequest (h : c.misses.WellFormed) (htidy : c.Tidy) (now : Nat)
    (lower : Lookup.Link) (id : BufferId) :
    (c.takeRequest now lower).1.lookups.filter (·.bufferId = id)
      = c.lookups.filter (·.bufferId = id) := by
  rcases hpop : c.port.requests.pop? now with _ | ⟨packet, rest⟩
  · rw [takeRequest, hpop]
  · have hrest := Port.items_of_pop? hpop
    rw [takeRequest_of_pop? hpop, access]
    split
    · rename_i entry hget
      have hheld : packet.item.bufferId ∈ c.lines.ids := by
        rw [← LineSet.contains_iff, LineSet.contains]
        exact Option.isSome_of_eq_some hget
      exact filter_lookups_hit h htidy now hheld entry hrest id
    · split
      · exact filter_lookups_wait h hrest id
      · exact filter_lookups_wait h hrest id

/-- **A cycle of a cache leaves the lookups for each buffer in line**, whatever comes from below. -/
theorem filter_lookups_cycle (h : c.misses.WellFormed) (htidy : c.Tidy) (now : Nat)
    (lower : Lookup.Link) (id : BufferId) :
    (c.cycle now lower).1.lookups.filter (·.bufferId = id)
      = c.lookups.filter (·.bufferId = id) := by
  have htidy' : c.countWaiting.Tidy := htidy.congr rfl rfl
  rw [cycle_eq,
    filter_lookups_takeRequest (wellFormed_takeResponse (c := c.countWaiting) h now lower)
      (htidy'.takeResponse now lower),
    filter_lookups_takeResponse (c := c.countWaiting) h]
  rfl

end RangeCache

/-! ## The traces of a checker stand in line with their lookups -/

namespace Checker

/-- The trace that waits for the answer to a question. -/
def asker? (c : Checker) (req : Request) : Option Trace := (c.slots.get? req.tag).map (·.trace)

/-- The traces that wait for the answers to those questions that are for a buffer. -/
def waitingFor (id : BufferId) (reqs : List Request) (c : Checker) : List Trace :=
  (reqs.filter (·.bufferId = id)).filterMap c.asker?

/-- Of the traces pushed, those for a buffer have gone or are about to, wait for the answers to
their lookups, or have not been looked at: in this order, and each of them as they were pushed. -/
def InOrder (pushed gone queue : List Trace) (reqs : List Request) (id : BufferId) (c : Checker) :
    Prop :=
  pushed.filter (·.concerns c.resolve id)
    = (gone ++ c.output.items).filter (·.concerns c.resolve id) ++ c.waitingFor id reqs
      ++ (c.input.items ++ queue).filter (·.concerns c.resolve id)

variable {pushed gone queue : List Trace} {beyond : List Request} {id : BufferId} {now : Nat}
  {c c' : Checker} {l1 l1' : Lookup.Link}

theorem waitingFor_cons (id : BufferId) (req : Request) (reqs : List Request) (c : Checker) :
    c.waitingFor id (req :: reqs)
      = (if req.bufferId = id then (c.asker? req).toList else []) ++ c.waitingFor id reqs := by
  rw [waitingFor, waitingFor]
  by_cases hid : req.bufferId = id
  · cases hasker : c.asker? req with
    | none => simp [hid, hasker]
    | some trace => simp [hid, hasker]
  · simp [hid]

theorem waitingFor_append (id : BufferId) (reqs others : List Request) (c : Checker) :
    c.waitingFor id (reqs ++ others) = c.waitingFor id reqs ++ c.waitingFor id others := by
  simp only [waitingFor, List.filter_append, List.filterMap_append]

theorem waitingFor_congr {reqs : List Request} (id : BufferId)
    (h : ∀ req ∈ reqs, c'.asker? req = c.asker? req) :
    c'.waitingFor id reqs = c.waitingFor id reqs :=
  List.filterMap_congr fun req hreq => h req (List.mem_of_mem_filter hreq)

/-- A trace concerns the buffer that is asked for on its behalf, and no other. -/
theorem concerns_of_question? {resolve : Address → Option BufferId} {tag : Tag} {trace : Trace}
    {req : Request} (h : question? resolve tag trace = some req) (id : BufferId) :
    trace.concerns resolve id = decide (req.bufferId = id) := by
  obtain ⟨access, other, haccess, hother, rfl⟩ := question?_eq_some_iff.mp h
  rw [Trace.concerns, haccess, Option.any_some, hother]
  show (some other == some id) = decide (other = id)
  rw [Option.some_beq_some, beq_eq_decide]

/-- No two pending lookups carry the same tag. -/
theorem Sound.nodup_tags {pending : Multiset Request} (h : c.Sound pending) :
    (pending.map (·.tag)).Nodup := by
  have honce : EachOnce c.slots.contains (pending.map (·.tag)) := by
    rw [h.map_tag]
    exact SlotTable.count_map_fst_held h.slots.capacity
  exact honce.nodup

/-- Settling one trace leaves those alone that wait under other tags. -/
theorem asker?_settle {pending : Multiset Request} (hs : c.Sound pending) {rsp : Response}
    {slot : PendingTrace} (hget : c.slots.get? rsp.tag = some slot) {req : Request}
    (hreq : req ∈ pending) (hne : req.tag ≠ rsp.tag) (trace : Trace) :
    (c.settle now rsp trace).asker? req = c.asker? req := by
  obtain ⟨hwf, -, -, hsplit⟩ := hs.slots.without hget
  obtain ⟨other, hother, -⟩ := hs.exists_slot hreq
  have hheld := (SlotTable.mem_held_iff hs.slots.capacity).mpr hother
  rw [hsplit, Multiset.mem_add, Multiset.mem_singleton, Prod.mk.injEq] at hheld
  have hkept := SlotTable.get?_of_mem_held hwf.capacity (hheld.resolve_left fun heq => hne heq.1)
  show ((c.slots.without rsp.tag).get? req.tag).map _ = (c.slots.get? req.tag).map _
  rw [hkept, hother]

/-- A trace that is looked up waits under a new tag, and all others wait as before. -/
theorem asker?_asked {pending : Multiset Request} (hs : c.Sound pending) {trace : Trace} {tag : Tag}
    {slots : SlotTable PendingTrace} (halloc : c.slots.allocate ⟨trace, 1⟩ = .ok (tag, slots))
    (rest : Port Trace) :
    (∀ req, req.tag = tag → (c.asked slots rest).asker? req = some trace) ∧
      ∀ req ∈ pending, (c.asked slots rest).asker? req = c.asker? req := by
  obtain ⟨hwf, -, -, hheld⟩ := hs.slots.of_allocate halloc
  have hkept : ∀ other slot, (other, slot) ∈ c.slots.held + {(tag, ⟨trace, 1⟩)} →
      slots.get? other = some slot := by
    intro other slot hmem
    rw [← hheld] at hmem
    exact SlotTable.get?_of_mem_held hwf.capacity hmem
  constructor
  · rintro req rfl
    have hnew := hkept req.tag _ (Multiset.mem_add.mpr (.inr (Multiset.mem_singleton_self _)))
    show (slots.get? req.tag).map _ = some trace
    rw [hnew, Option.map_some]
  · intro req hreq
    obtain ⟨slot, hslot, -⟩ := hs.exists_slot hreq
    have hmem := (SlotTable.mem_held_iff hs.slots.capacity).mpr hslot
    show (slots.get? req.tag).map _ = (c.slots.get? req.tag).map _
    rw [hslot, hkept _ _ (Multiset.mem_add.mpr (.inl hmem))]

/-- The trace for which an answer has come leaves the line at its head. -/
theorem InOrder.settle (h : c.InOrder pushed gone queue (inLine l1 beyond) id)
    (hs : c.Sound (underway l1 + ↑beyond)) {packet : Packet Response} {others : Port Response}
    {pending : PendingTrace} (hpop : l1.responses.pop? now = some (packet, others))
    (hget : c.slots.get? packet.item.tag = some pending) :
    (c.settle now packet.item pending.trace).InOrder pushed gone queue
      (inLine { l1 with responses := others } beyond) id := by
  have hline := inLine_of_pop? hpop beyond
  rw [← coe_inLine, hline] at hs
  have hnd := hs.nodup_tags
  rw [Multiset.map_coe, Multiset.coe_nodup, List.map_cons, List.nodup_cons] at hnd
  have hothers : (c.settle now packet.item pending.trace).waitingFor id
      (inLine { l1 with responses := others } beyond)
        = c.waitingFor id (inLine { l1 with responses := others } beyond) := by
    refine waitingFor_congr id fun req hreq => ?_
    have hpending := Multiset.mem_coe.mpr (List.mem_cons_of_mem packet.item.question hreq)
    have hne : req.tag ≠ packet.item.tag := fun heq =>
      hnd.1 (List.mem_map.mpr ⟨req, hreq, heq⟩)
    exact asker?_settle hs hget hpending hne pending.trace
  have hasker : c.asker? packet.item.question = some pending.trace := by
    show (c.slots.get? packet.item.tag).map _ = _
    rw [hget, Option.map_some]
  obtain ⟨slot, hslot, -, hq⟩ := hs.exists_slot (Multiset.mem_coe.mpr List.mem_cons_self)
  cases hslot.symm.trans hget
  have hconcerns := concerns_of_question? hq id
  rw [InOrder, hline, waitingFor_cons, hasker, Option.toList_some] at h
  rw [InOrder, hothers]
  show pushed.filter (·.concerns c.resolve id)
    = (gone ++ (c.output.send pending.trace 1 now).items).filter (·.concerns c.resolve id) ++ _
      ++ (c.input.items ++ queue).filter (·.concerns c.resolve id)
  rw [h, Port.items_send]
  by_cases hid : packet.item.question.bufferId = id
  · rw [decide_eq_true hid] at hconcerns
    simp [hid, hconcerns]
  · rw [decide_eq_false hid] at hconcerns
    simp [hid, hconcerns]

/-- A trace that belongs to no buffer is in nobody's way. -/
theorem InOrder.unresolved {reqs : List Request} (h : c.InOrder pushed gone queue reqs id)
    {packet : Packet Trace} {others : Port Trace} {access : MemAccess}
    (hpop : c.input.pop? now = some (packet, others))
    (haccess : packet.item.firstAccess? = some access) (hnone : c.resolve access.addr = none) :
    ({ c with input := others }.unresolved now packet.item).InOrder pushed gone queue reqs id := by
  have hconcerns : packet.item.concerns c.resolve id = false := by
    rw [Trace.concerns, haccess, Option.any_some, hnone]
    rfl
  have hinput : (c.input.items ++ queue).filter (·.concerns c.resolve id)
      = (others.items ++ queue).filter (·.concerns c.resolve id) := by
    rw [Port.items_of_pop? hpop, List.cons_append]
    exact List.filter_cons_of_neg (by rw [hconcerns]; exact Bool.false_ne_true)
  rw [InOrder, hinput] at h
  rw [Checker.unresolved]
  split
  · exact h
  · have houtput : (gone ++ (c.output.send packet.item 1 now).items).filter
        (·.concerns c.resolve id) = (gone ++ c.output.items).filter (·.concerns c.resolve id) := by
      rw [Port.items_send, ← List.append_assoc, List.filter_append]
      simp [hconcerns]
    show pushed.filter (·.concerns c.resolve id)
      = (gone ++ (c.output.send packet.item 1 now).items).filter (·.concerns c.resolve id) ++ _ ++ _
    rw [houtput]
    exact h

/-- A trace that is looked up joins the line at its end. -/
theorem InOrder.asked (h : c.InOrder pushed gone queue (inLine l1 beyond) id)
    (hs : c.Sound (underway l1 + ↑beyond)) {packet : Packet Trace} {others : Port Trace}
    {access : MemAccess} {buffer : BufferId} {tag : Tag} {slots : SlotTable PendingTrace}
    (hpop : c.input.pop? now = some (packet, others))
    (haccess : packet.item.firstAccess? = some access) (hid : c.resolve access.addr = some buffer)
    (halloc : c.slots.allocate ⟨packet.item, 1⟩ = .ok (tag, slots)) :
    (c.asked slots others).InOrder pushed gone queue
      (inLine (l1.request (requestFor packet.item access.addr buffer tag) 1 now) beyond) id := by
  rw [← coe_inLine] at hs
  obtain ⟨hnew, hkept⟩ := asker?_asked hs halloc others
  have hothers : (c.asked slots others).waitingFor id (inLine l1 beyond)
      = c.waitingFor id (inLine l1 beyond) :=
    waitingFor_congr id fun req hreq => hkept req (Multiset.mem_coe.mpr hreq)
  have hasker := hnew (requestFor packet.item access.addr buffer tag) rfl
  have hq : question? c.resolve tag packet.item
      = some (requestFor packet.item access.addr buffer tag) :=
    question?_eq_some_iff.mpr ⟨access, buffer, haccess, hid, rfl⟩
  have hconcerns := concerns_of_question? hq id
  rw [InOrder, Port.items_of_pop? hpop] at h
  rw [InOrder, inLine_request, waitingFor_append, hothers, waitingFor_cons, hasker]
  show pushed.filter (·.concerns c.resolve id)
    = (gone ++ c.output.items).filter (·.concerns c.resolve id) ++ _
      ++ (others.items ++ queue).filter (·.concerns c.resolve id)
  rw [h]
  by_cases hbuffer : (requestFor packet.item access.addr buffer tag).bufferId = id
  · rw [decide_eq_true hbuffer] at hconcerns
    simp [hbuffer, hconcerns, waitingFor]
  · rw [decide_eq_false hbuffer] at hconcerns
    simp [hbuffer, hconcerns, waitingFor]

/-- **No move of a checker lets a trace overtake another one of its buffer.** -/
theorem InOrder.move (h : c.InOrder pushed gone queue (inLine l1 beyond) id)
    (hs : c.Sound (underway l1 + ↑beyond)) (hmove : Move now (c, l1) (c', l1')) :
    c'.InOrder pushed gone queue (inLine l1' beyond) id := by
  cases hmove with
  | settle hpop hget _ => exact h.settle hs hpop hget
  | stall _ _ => exact h
  | unresolved hpop haccess hnone => exact h.unresolved hpop haccess hnone
  | ask hpop haccess hid halloc => exact h.asked hs hpop haccess hid halloc

/-- Nor do several moves. -/
theorem InOrder.moves (h : c.InOrder pushed gone queue (inLine l1 beyond) id)
    (hs : c.Sound (underway l1 + ↑beyond)) {next : Checker × Lookup.Link}
    (hmoves : Relation.ReflTransGen (Move now) (c, l1) next) :
    next.1.InOrder pushed gone queue (inLine next.2 beyond) id := by
  induction hmoves with
  | refl => exact h
  | tail hreach hmove ih => exact ih.move (hs.moves hreach) hmove

end Checker

/-! ## The traces of a core -/

namespace Core

/-- The traces of a core are in order for every buffer, given those pushed for it and those taken
from it. -/
structure InOrder (pushed taken : List Trace) (core : Core) : Prop where
  misses : core.l1.misses.WellFormed
  tidy : core.l1.Tidy
  traces : ∀ id, core.checker.InOrder pushed (taken ++ core.completed) core.queue core.l1.lookups id

variable {pushed taken : List Trace} {core core' : Core} {now : Nat}

theorem InOrder.collect (h : core.InOrder pushed taken) (now : Nat) :
    (core.collect now).InOrder pushed taken := by
  refine ⟨h.misses, h.tidy, fun id => ?_⟩
  have htraces := h.traces id
  rw [Checker.InOrder, ← core.gone_collect taken now] at htraces
  exact htraces

/-- A trace that is given to the checker is the first of the queue and the last of the input. -/
theorem InOrder.feed (h : core.InOrder pushed taken) (now : Nat) :
    (core.feed now).InOrder pushed taken := by
  rcases core.feed_cases now with ⟨-, heq⟩ | ⟨trace, rest, -, hqueue, heq⟩
  · rw [heq]
    exact h
  · rw [heq]
    refine ⟨h.misses, h.tidy, fun id => ?_⟩
    have hfed : (core.checker.input.send trace 1 now).items ++ rest
        = core.checker.input.items ++ core.queue := by
      rw [Port.items_send, hqueue, List.append_assoc]
      rfl
    have htraces := h.traces id
    rw [Checker.InOrder, ← hfed] at htraces
    exact htraces

/-- **A step of a core keeps its traces in order.** -/
theorem InOrder.stepped {c : Config} (h : core.InOrder pushed taken)
    (hstep : core.Stepped c now core') : core'.InOrder pushed taken := by
  obtain ⟨l1, next, -, hsound, hmoves, lower, rfl⟩ := hstep
  have hmisses := RangeCache.wellFormed_cycle h.misses now lower
  have htidy := h.tidy.cycle now lower
  refine InOrder.feed (InOrder.collect ⟨hmisses, htidy.congr rfl rfl, fun id => ?_⟩ now) now
  have htraces : core.checker.InOrder pushed (taken ++ core.completed) core.queue
      (core.l1.cycle now lower).1.lookups id := by
    have hline := RangeCache.filter_lookups_cycle h.misses h.tidy now lower id
    rw [Checker.InOrder, Checker.waitingFor, hline]
    exact h.traces id
  exact htraces.moves hsound hmoves

theorem InOrder.give (h : core.InOrder pushed taken) (trace : Trace) :
    (core.give trace).InOrder (pushed ++ [trace]) taken := by
  refine ⟨h.misses, h.tidy, fun id => ?_⟩
  have htraces := h.traces id
  rw [Checker.InOrder] at htraces
  show (pushed ++ [trace]).filter (·.concerns core.checker.resolve id) = _ ++ _
    ++ (core.checker.input.items ++ (core.queue ++ [trace])).filter
      (·.concerns core.checker.resolve id)
  rw [List.filter_append, htraces, ← List.append_assoc core.checker.input.items,
    List.filter_append (_ ++ _) [trace], ← List.append_assoc]
  rfl

theorem InOrder.take (h : core.InOrder pushed taken) :
    ({ core with completed := [] } : Core).InOrder pushed (taken ++ core.completed) := by
  refine ⟨h.misses, h.tidy, fun id => ?_⟩
  rw [List.append_nil]
  exact h.traces id

theorem inOrder_reset (core : Core) : core.reset.InOrder [] [] :=
  ⟨MissTable.wellFormed_default, RangeCache.tidy_reset core.l1, fun _ => rfl⟩

end Core

/-! ## The order of a machine in use -/

/-- The verdict on a trace is about the buffer that the trace concerns. -/
theorem Config.concerns_of_verdict? {c : Config} {resolve : Address → Option BufferId}
    {trace : Trace} {verdict : Verdict} (h : c.verdict? resolve trace = some verdict)
    (id : BufferId) : trace.concerns resolve id = decide (verdict.bufferId = id) := by
  rw [Config.verdict?, Option.bind_eq_some_iff] at h
  obtain ⟨access, haccess, h⟩ := h
  obtain ⟨buffer, hbuffer, rfl⟩ := Option.map_eq_some_iff.mp h
  rw [Trace.concerns, haccess, Option.any_some, hbuffer]
  show (some buffer == some id) = decide (buffer = id)
  rw [Option.some_beq_some, beq_eq_decide]

/-- The verdicts to expect on a buffer are those on the traces that concern it. -/
theorem Config.filter_filterMap_verdict? (c : Config) (resolve : Address → Option BufferId)
    (traces : List Trace) (id : BufferId) :
    (traces.filterMap (c.verdict? resolve)).filter (·.bufferId = id)
      = (traces.filter (·.concerns resolve id)).filterMap (c.verdict? resolve) := by
  induction traces with
  | nil => rfl
  | cons trace traces ih =>
    cases hverdict : c.verdict? resolve trace with
    | none =>
      rw [List.filterMap_cons_none hverdict, ih, List.filter_cons]
      split
      · rw [List.filterMap_cons_none hverdict]
      · rfl
    | some verdict =>
      have hconcerns := c.concerns_of_verdict? hverdict id
      rw [List.filterMap_cons_some hverdict, List.filter_cons, List.filter_cons, hconcerns, ih]
      split
      · rw [List.filterMap_cons_some hverdict]
      · rfl

namespace Drive

variable {c : Config} {m : Machine} {resolver : Resolver}

/-- The traces of each core are in order after any calls. -/
theorem inOrder (hnew : Machine.new c = .ok m) (hresolver : Resolver.ofConfig c = .ok resolver)
    (hfit : c.TagsFit) (calls : List Call) {i : Nat} {core : Core}
    (hcore : ((start m).after calls).machine.cores[i]? = some core) :
    core.InOrder (((start m).after calls).pushed i) (((start m).after calls).takenCompleted i) :=
  cores_keep (Q := fun history core => core.InOrder history.pushed history.completed)
    hnew hresolver hfit (fun trace h => h.give trace) (fun h hstep => h.stepped hstep)
    (fun h => h.take)
    (fun h => ⟨h.misses, h.tidy, h.traces⟩)
    (fun core => core.inOrder_reset) calls i core hcore

/-- **A core completes and judges the traces that concern a buffer in the order in which they were
pushed**, whatever was asked of the machine and whatever its other cores do: those that it has
completed or is about to let go come first among those pushed, and so do the verdicts on them. -/
theorem program_order (hnew : Machine.new c = .ok m)
    (hresolver : Resolver.ofConfig c = .ok resolver) (hfit : c.TagsFit) (calls : List Call) (i : Nat)
    (hi : i < c.cores.toNat) :
    ∃ core, ((start m).after calls).machine.cores[i]? = some core ∧ ∀ id,
      (((start m).after calls).completed i ++ core.checker.output.items).filter
          (·.concerns resolver.resolve id)
        <+: (((start m).after calls).pushed i).filter (·.concerns resolver.resolve id) ∧
      ((((start m).after calls).verdicts i).map Verdict.timeless).filter (·.bufferId = id)
        <+: ((((start m).after calls).pushed i).filter (·.concerns resolver.resolve id)).filterMap
          (c.verdict? resolver.resolve) := by
  have hregular := Drive.regular hnew hresolver hfit calls
  rw [← hregular.shaped.length] at hi
  have hcore := List.getElem?_eq_getElem hi
  refine ⟨_, hcore, fun id => ?_⟩
  have htraces := (inOrder hnew hresolver hfit calls hcore).traces id
  have hlogged := logged hnew hresolver hfit calls hcore
  have hresolve := (hregular.shaped.cores i _ hcore).resolve
  rw [Checker.InOrder, hresolve, List.append_assoc] at htraces
  rw [Checker.Logged, hresolve] at hlogged
  rw [completed_eq hcore, verdicts_eq hregular.shaped hcore, hlogged, c.filter_filterMap_verdict?,
    htraces, List.filterMap_append]
  exact ⟨List.prefix_append _ _, List.prefix_append _ _⟩

/-- Two cores whose caches have room for one entry.  The first one alternates between two buffers, so
that its third trace overtakes the second one; the other core asks for one of them as well.  The
first trace is taken on the way, and the last one is still due. -/
theorem program_order_two_cores :
    ∃ m resolver core, Machine.new { cores := 2, l1 := { capacity := 1 } } = .ok m ∧
      Resolver.ofConfig { cores := 2, l1 := { capacity := 1 } } = .ok resolver ∧
      ((start m).after [.push (.load 1 0xFEFFFFC8 4), .push (.store 2 0xFEFFFFBC 4),
        .push (.store 3 0xFEFFFFC8 4), .push (.load 4 0xFEFFFFBC 4),
        .push { uuid := 5, coreId := 1, kind := .load, blocks := [[⟨0xFEFFFFBC, 4⟩]] },
        .run 17, .takeCompleted, .run 18]).machine.cores[0]? = some core ∧
      (((start m).after [.push (.load 1 0xFEFFFFC8 4), .push (.store 2 0xFEFFFFBC 4),
        .push (.store 3 0xFEFFFFC8 4), .push (.load 4 0xFEFFFFBC 4),
        .push { uuid := 5, coreId := 1, kind := .load, blocks := [[⟨0xFEFFFFBC, 4⟩]] },
        .run 17, .takeCompleted, .run 18]).completed 0 ++ core.checker.output.items).filter
          (·.concerns resolver.resolve 1)
        <+: (((start m).after [.push (.load 1 0xFEFFFFC8 4), .push (.store 2 0xFEFFFFBC 4),
        .push (.store 3 0xFEFFFFC8 4), .push (.load 4 0xFEFFFFBC 4),
        .push { uuid := 5, coreId := 1, kind := .load, blocks := [[⟨0xFEFFFFBC, 4⟩]] },
        .run 17, .takeCompleted, .run 18]).pushed 0).filter (·.concerns resolver.resolve 1) := by
  obtain ⟨core, hcore, horder⟩ := program_order (c := { cores := 2, l1 := { capacity := 1 } }) rfl rfl
    (by decide)
    [.push (.load 1 0xFEFFFFC8 4), .push (.store 2 0xFEFFFFBC 4),
      .push (.store 3 0xFEFFFFC8 4), .push (.load 4 0xFEFFFFBC 4),
      .push { uuid := 5, coreId := 1, kind := .load, blocks := [[⟨0xFEFFFFBC, 4⟩]] },
      .run 17, .takeCompleted, .run 18] 0 (by decide)
  exact ⟨_, _, core, rfl, rfl, hcore, (horder 1).1⟩

end Drive

end BoundsCheck
