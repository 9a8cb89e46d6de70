import BoundsCheck.Proofs.InFlight
import BoundsCheck.Proofs.Ledger
import BoundsCheck.Proofs.Responder

/-!
# A checker tracks what it has asked for

Tags are given out again as soon as they are free, and a checker may give one up and out in the same
cycle.  Still it never mistakes one trace for another: in front of any server that answers each
lookup once, whenever and in whatever order, every trace that it looks up is judged once, by the
entry that its own question was answered with, and let go in the same cycle.  This holds even if more
traces are sent to it than it has slots for.  Cycles are then cut short, but nothing is lost by that.

* `Checker.Tracks` — the slots wait for the lookups outstanding, however much has been sent.
* `Checker.Event`, `Checker.Bench` — what happens to a checker and around it.
* `Checker.Log` — which traces were looked up, and what became of them.
* `Checker.Bench.Accounted` — the accounts of a checker, given such a log.
* `Checker.Bench.each_judged_once` — there is one after any events.
-/

set_option autoImplicit false

namespace BoundsCheck

open Lookup

namespace Checker

/-! ## Checkers whose input may overflow -/

/-- The slots wait for the pending lookups, each for one of them.  There may be more traces in the
input than free slots. -/
def Tracks (pending : Multiset Request) (c : Checker) : Prop :=
  ({ c with input := {} } : Checker).Sound pending

/-- A trace under a tag, and the question asked for it. -/
def waitingUnder (tag : Tag) (c : Checker) : List (Trace × Request) :=
  ((c.slots.get? tag).bind fun slot =>
    (question? c.resolve tag slot.trace).map (slot.trace, ·)).toList

variable {now : Nat} {c c' : Checker} {l1 l1' : Lookup.Link} {rest : Multiset Request}

/-- If there was a slot for the next trace, then there was enough room for this one. -/
theorem Tracks.asked (h : c.Tracks (underway l1 + rest)) {packet : Packet Trace}
    {others : Port Trace} {access : MemAccess} {id : BufferId} {tag : Tag}
    {slots : SlotTable PendingTrace} (haccess : packet.item.firstAccess? = some access)
    (hid : c.resolve access.addr = some id)
    (halloc : c.slots.allocate ⟨packet.item, 1⟩ = .ok (tag, slots)) :
    (c.asked slots others).Tracks
      (underway (l1.request (requestFor packet.item access.addr id tag) 1 now) + rest) := by
  have hroom : c.slots.used < c.slots.capacity := h.slots.used_lt_of_allocate halloc
  -- the checker with no other trace in its input than the one at hand
  let visible : Packet Trace := ⟨packet.item, packet.sent, now⟩
  have hsound : ({ c with input := ⟨[visible]⟩ } : Checker).Sound (underway l1 + rest) :=
    ⟨h.slots, h.outstanding, h.single, hroom⟩
  have hpop : (⟨[visible]⟩ : Port Trace).pop? now = some (visible, {}) :=
    Port.pop?_eq_some_iff.mpr ⟨rfl, le_refl now⟩
  have hfirst : visible.item.firstAccess? = some access := haccess
  have hasked := hsound.asked hpop hfirst hid halloc
  exact hasked

theorem Tracks.move (h : c.Tracks (underway l1 + rest)) (hmove : Move now (c, l1) (c', l1')) :
    c'.Tracks (underway l1' + rest) := by
  cases hmove with
  | settle hpop hget _ => exact Sound.settle h hpop hget
  | stall _ _ => exact ⟨h.slots, h.outstanding, h.single, h.room⟩
  | @unresolved packet others access _ _ _ =>
    rw [Checker.unresolved]
    split
    · exact ⟨h.slots, h.outstanding, h.single, h.room⟩
    · exact ⟨h.slots, h.outstanding, h.single, h.room⟩
  | ask _ haccess hid halloc => exact h.asked haccess hid halloc

/-- An answer that is visible is taken in with a move. -/
theorem Tracks.takeResponse_eq (h : c.Tracks (underway l1 + rest)) {packet : Packet Response}
    {others : Port Response} (hpop : l1.responses.pop? now = some (packet, others)) :
    ∃ slot, c.slots.get? packet.item.tag = some slot ∧
      Move now (c, l1) (c.settle now packet.item slot.trace, { l1 with responses := others }) ∧
      c.takeResponse now l1
        = .ok (c.settle now packet.item slot.trace, { l1 with responses := others }) := by
  have hmem : packet.item.question ∈ underway l1 + rest :=
    Multiset.mem_add.mpr (.inl (mem_underway_of_pop?_responses hpop))
  obtain ⟨slot, hslot, hone, -⟩ := Sound.exists_slot h hmem
  change c.slots.get? packet.item.tag = some slot at hslot
  refine ⟨slot, hslot, .settle hpop hslot hone, ?_⟩
  rw [Checker.takeResponse, hpop]
  simp only [complete_eq hslot hone]
  rfl

/-- The next trace is taken in with a move, or stays where it is for want of a slot. -/
theorem issue_moves (c : Checker) (l1 : Lookup.Link) (now : Nat) :
    (∀ tag, (c.issue now l1).error? ≠ some (.unknownTag tag)) ∧
      Relation.ReflGen (Move now) (c, l1) (c.issue now l1).state := by
  rw [Checker.issue]
  rcases hpop : c.input.pop? now with _ | ⟨packet, others⟩
  · exact ⟨fun _ => (Option.some_ne_none _).symm, .refl⟩
  · rcases haccess : packet.item.firstAccess? with _ | access
    · simp only [haccess]
      exact ⟨fun _ => (Option.some_ne_none _).symm, .single (.stall hpop haccess)⟩
    · rcases hid : c.resolve access.addr with _ | id
      · simp only [haccess, hid]
        exact ⟨fun _ => (Option.some_ne_none _).symm, .single (.unresolved hpop haccess hid)⟩
      · simp only [haccess, hid, lookUp]
        rcases halloc : c.slots.allocate ⟨packet.item, 1⟩ with e | ⟨tag, slots⟩
        · have he : e = .exhausted c.slots.capacity := by
            rw [SlotTable.allocate] at halloc
            split at halloc
            · exact (Except.error.inj halloc).symm
            · cases halloc
          refine ⟨fun tag heq => ?_, .refl⟩
          cases he.symm.trans (Option.some.inj heq)
        · exact ⟨fun _ => (Option.some_ne_none _).symm, .single (.ask hpop haccess hid halloc)⟩

/-- **A cycle is made of moves, even if it is cut short**, and no answer is ever for a free slot. -/
theorem Tracks.cycle (h : c.Tracks (underway l1 + rest)) (now : Nat) :
    (∀ tag, (c.cycle now l1).error? ≠ some (.unknownTag tag)) ∧
      Relation.ReflTransGen (Move now) (c, l1) (c.cycle now l1).state := by
  obtain ⟨first, hmove, heq⟩ : ∃ first, Relation.ReflGen (Move now) (c, l1) first ∧
      c.takeResponse now l1 = .ok first := by
    rcases hpop : l1.responses.pop? now with _ | ⟨packet, others⟩
    · exact ⟨_, .refl, by rw [Checker.takeResponse, hpop]⟩
    · obtain ⟨slot, -, hmove, heq⟩ := h.takeResponse_eq hpop
      exact ⟨_, .single hmove, heq⟩
  obtain ⟨herror, hmove'⟩ := first.1.issue_moves first.2 now
  rw [cycle_of_takeResponse heq]
  exact ⟨herror, hmove.to_reflTransGen.trans hmove'.to_reflTransGen⟩

/-- A trace in a slot waits with its question. -/
theorem waitingUnder_of_get? {tag : Tag} {slot : PendingTrace} {req : Request}
    (hget : c.slots.get? tag = some slot) (hq : question? c.resolve tag slot.trace = some req) :
    c.waitingUnder tag = [(slot.trace, req)] := by
  rw [waitingUnder, hget, Option.bind_some, hq]
  rfl

theorem waitingUnder_settle (now : Nat) (rsp : Response) (trace : Trace) (tag : Tag) :
    (c.settle now rsp trace).waitingUnder tag = if tag = rsp.tag then [] else c.waitingUnder tag := by
  have hget := c.slots.get?_without rsp.tag tag
  change (((c.slots.without rsp.tag).get? tag).bind _).toList = _
  rw [hget]
  split
  · rfl
  · rfl

theorem waitingUnder_asked (hcap : c.slots.capacity ≤ 2 ^ 32) {trace : Trace} {tag : Tag}
    {slots : SlotTable PendingTrace} {req : Request}
    (halloc : c.slots.allocate ⟨trace, 1⟩ = .ok (tag, slots))
    (hq : question? c.resolve tag trace = some req) (others : Port Trace) :
    c.waitingUnder tag = [] ∧ ∀ other, (c.asked slots others).waitingUnder other
      = if other = tag then [(trace, req)] else c.waitingUnder other := by
  obtain ⟨hnone, hget⟩ := SlotTable.get?_of_allocate hcap halloc
  refine ⟨by rw [waitingUnder, hnone]; rfl, fun other => ?_⟩
  change ((slots.get? other).bind _).toList = _
  rw [hget]
  split
  · rename_i heq
    rw [heq, Option.bind_some]
    show ((question? c.resolve tag trace).map _).toList = _
    rw [hq]
    rfl
  · rfl

/-! ## A checker and its surroundings -/

/-- What happens to a checker or to the server below it. -/
inductive Event
  /-- A trace is sent to the checker. -/
  | give (trace : Trace) (delay now : Nat)
  /-- A trace is taken from the checker, if one is visible. -/
  | collect (now : Nat)
  /-- The checker works. -/
  | cycle (now : Nat)
  /-- The server takes a lookup in, if one is visible. -/
  | fetch (now : Nat)
  /-- The server answers one of the lookups that it has taken in, with any entry. -/
  | answer (pick : Nat) (entry : RangeEntry) (delay now : Nat)
deriving DecidableEq, Repr

/-- A checker above a responder, with what has come and gone.  Lists begin with what came first. -/
structure Bench where
  checker : Checker
  server : Responder := {}
  /-- The traces that were sent to the checker. -/
  given : List Trace := []
  /-- The traces that were taken from the checker. -/
  collected : List (Packet Trace) := []

/-- What became of a trace that a checker has taken in. -/
inductive Fate
  /-- It was judged by the entry that its question was answered with. -/
  | judged (trace : Trace) (req : Request) (entry : RangeEntry) (now : Nat)
  /-- Its address belongs to no buffer. -/
  | strayed (trace : Trace) (now : Nat)
deriving DecidableEq, Repr

namespace Fate

/-- A trace that was judged, and its question. -/
def settled? : Fate → Option (Trace × Request)
  | judged trace req _ _ => some (trace, req)
  | strayed _ _ => none

/-- The question of a trace that was judged, and the answer to it. -/
def answer? : Fate → Option (Request × Response)
  | judged _ req entry _ => some (req, req.answer entry)
  | strayed _ _ => none

/-- The verdict by the entry, on the access of the trace. -/
def verdict? : Fate → Option Verdict
  | judged trace req entry now =>
    some (Verdict.judge req.addr req.bufferId trace.isStore entry now req.uuid)
  | strayed _ _ => none

/-- A trace that was not judged. -/
def strayed? : Fate → Option Trace
  | judged _ _ _ _ => none
  | strayed trace _ => some trace

/-- The trace as it is let go, if it is. -/
def packet? (policy : UnresolvedPolicy) : Fate → Option (Packet Trace)
  | judged trace _ _ now => some ⟨trace, now, now + 1⟩
  | strayed trace now =>
    match policy with
    | .drop => none
    | .forward => some ⟨trace, now, now + 1⟩

end Fate

/-- Nothing but the output and the counters changes when a trace belongs to no buffer. -/
theorem unresolved_keeps (now : Nat) (trace : Trace) (c : Checker) :
    (c.unresolved now trace).config = c.config ∧ (c.unresolved now trace).resolve = c.resolve ∧
      (c.unresolved now trace).slots = c.slots ∧ (c.unresolved now trace).input = c.input ∧
      (c.unresolved now trace).verdicts = c.verdicts := by
  rw [Checker.unresolved]
  split
  · exact ⟨rfl, rfl, rfl, rfl, rfl⟩
  · exact ⟨rfl, rfl, rfl, rfl, rfl⟩

/-- The output changes as the policy says. -/
theorem output_unresolved (now : Nat) (trace : Trace) (c : Checker) :
    (c.unresolved now trace).output.packets
      = c.output.packets
        ++ [Fate.strayed trace now].filterMap (Fate.packet? c.config.unresolved) := by
  rcases hpolicy : c.config.unresolved with _ | _
  · simp [Checker.unresolved, hpolicy, Fate.packet?]
  · simp [Checker.unresolved, hpolicy, Fate.packet?, emit, Port.send]

/-- No verdict is reached when a trace is taken in. -/
theorem verdicts_issue (now : Nat) (l1 : Lookup.Link) (c : Checker) :
    (c.issue now l1).state.1.verdicts = c.verdicts := by
  rw [issue]
  split
  · rfl
  · rename_i packet rest hpop
    split
    · rfl
    · split
      · exact (unresolved_keeps now packet.item { c with input := rest }).2.2.2.2
      · rw [lookUp]
        split
        · rfl
        · rfl

/-- What a checker has done.  Lists begin with what came first. -/
structure Log where
  /-- The traces that it has taken from its input. -/
  taken : List Trace := []
  /-- Those of them that it has looked up, each with its question. -/
  asked : List (Trace × Request) := []
  /-- What became of those that are gone. -/
  fates : List Fate := []
  /-- The answers that it has not taken in, each with its question. -/
  due : List (Request × Response) := []

namespace Log

/-- The traces that were judged, each with its question. -/
def settled (log : Log) : List (Trace × Request) := log.fates.filterMap Fate.settled?

end Log

namespace Bench

/-- The bench after an event. -/
def step (b : Bench) : Event → Bench
  | .give trace delay now =>
    { b with
      checker.input := b.checker.input.send trace delay now
      given := b.given ++ [trace] }
  | .collect now =>
    match b.checker.output.pop? now with
    | none => b
    | some (packet, rest) =>
      { b with
        checker.output := rest
        collected := b.collected ++ [packet] }
  | .cycle now =>
    { b with
      checker := (b.checker.cycle now b.server.link).state.1
      server.link := (b.checker.cycle now b.server.link).state.2 }
  | .fetch now => { b with server := b.server.fetch now }
  | .answer pick entry delay now =>
    { b with server := b.server.answer pick (fun req => req.answer entry) delay now }

/-- The bench after several events. -/
def after (events : List Event) (b : Bench) : Bench := events.foldl step b

/-- The accounts of a checker, given what it has done. -/
structure Accounted (config : CheckerConfig) (resolve : Address → Option BufferId) (log : Log)
    (b : Bench) : Prop where
  /-- No cycle, whenever it comes, meets an answer for a slot that is free. -/
  known : ∀ now tag, (b.checker.cycle now b.server.link).error? ≠ some (.unknownTag tag)
  /-- The tags of the lookups outstanding are those of the slots in use, each once. -/
  tags : EachOnce b.checker.slots.contains (b.server.outstanding.map (·.tag))
  /-- Traces are taken in in the order they came. -/
  taken : b.given = log.taken ++ b.checker.input.items
  /-- Each of them has an access, whose address belongs to a buffer or to none. -/
  sorted : ∀ trace ∈ log.taken, (trace.resolves resolve || trace.strays resolve) = true
  /-- Those that resolve are looked up, -/
  traces : log.asked.map (·.1) = log.taken.filter (·.resolves resolve)
  /-- each with the question for its own access, -/
  questions : ∀ ask ∈ log.asked, question? resolve ask.2.tag ask.1 = some ask.2
  /-- and these are all that the server is ever asked. -/
  forwarded : log.asked.map (·.2) = b.server.forwarded
  /-- Of the traces looked up under a tag, all are judged, one by one in the order in which they
  were, and the last one may be waiting. -/
  inTurn : ∀ tag, log.asked.filter (·.2.tag = tag)
    = log.settled.filter (·.2.tag = tag) ++ b.checker.waitingUnder tag
  /-- So those that are not judged are in the slots, -/
  waiting : (↑(log.asked.map (·.1)) : Multiset Trace)
    = ↑(log.settled.map (·.1)) + b.checker.tracked
  /-- and there are none once nothing is outstanding. -/
  settled : b.server.outstanding = 0 → b.checker.tracked = 0
  /-- The answers taken in are those that traces were judged by, and all others are due. -/
  answered : b.server.answered = log.fates.filterMap Fate.answer? ++ log.due
  due : log.due.map (·.2) = b.server.link.responses.items
  /-- The next of them is taken in by the first cycle that comes when it is visible. -/
  prompt : ∀ now packet rest, b.server.link.responses.pop? now = some (packet, rest) →
    ∃ trace, (b.step (.cycle now)).checker.verdicts
      = b.checker.verdicts ++ [verdictOf now packet.item trace]
  /-- The verdicts are those on the traces judged. -/
  verdicts : b.checker.verdicts = log.fates.filterMap Fate.verdict?
  /-- Those that do not resolve are not judged. -/
  strayed : log.fates.filterMap Fate.strayed? = log.taken.filter (·.strays resolve)
  /-- A trace is let go in the cycle in which it is judged or found not to resolve, unless it is
  dropped. -/
  output : b.collected ++ b.checker.output.packets
    = log.fates.filterMap (Fate.packet? config.unresolved)

/-! ## What always holds -/

/-- What always holds of a checker above a responder, given what it has done. -/
structure Regular (config : CheckerConfig) (resolve : Address → Option BufferId) (log : Log)
    (b : Bench) : Prop where
  configured : b.checker.config = config
  resolver : b.checker.resolve = resolve
  tracks : b.checker.Tracks b.server.outstanding
  taken : b.given = log.taken ++ b.checker.input.items
  sorted : ∀ trace ∈ log.taken, (trace.resolves resolve || trace.strays resolve) = true
  traces : log.asked.map (·.1) = log.taken.filter (·.resolves resolve)
  questions : ∀ ask ∈ log.asked, question? resolve ask.2.tag ask.1 = some ask.2
  forwarded : log.asked.map (·.2) = b.server.forwarded
  inTurn : ∀ tag, log.asked.filter (·.2.tag = tag)
    = log.settled.filter (·.2.tag = tag) ++ b.checker.waitingUnder tag
  waiting : (↑(log.asked.map (·.1)) : Multiset Trace)
    = ↑(log.settled.map (·.1)) + b.checker.tracked
  answered : b.server.answered = log.fates.filterMap Fate.answer? ++ log.due
  due : log.due.map (·.2) = b.server.link.responses.items
  /-- Every answer repeats its question. -/
  repeats : ∀ answer ∈ log.due, answer.2 = answer.1.answer answer.2.entry
  verdicts : b.checker.verdicts = log.fates.filterMap Fate.verdict?
  strayed : log.fates.filterMap Fate.strayed? = log.taken.filter (·.strays resolve)
  output : b.collected ++ b.checker.output.packets
    = log.fates.filterMap (Fate.packet? config.unresolved)

variable {config : CheckerConfig} {resolve : Address → Option BufferId} {log : Log} {b : Bench}

/-! ### The moves of the checker -/

/-- The bench after a move of its checker. -/
def moved (next : Checker × Lookup.Link) (b : Bench) : Bench :=
  { b with
    checker := next.1
    server.link := next.2 }

/-- The answer that comes next is the first one due. -/
theorem Regular.due_of_pop? (h : b.Regular config resolve log) {now : Nat}
    {packet : Packet Response} {rest : Port Response}
    (hpop : b.server.link.responses.pop? now = some (packet, rest)) :
    ∃ req due, log.due = (req, packet.item) :: due ∧ due.map (·.2) = rest.items ∧
      packet.item = req.answer packet.item.entry := by
  have hdue := h.due
  rw [Port.items_of_pop? hpop, List.map_eq_cons_iff] at hdue
  obtain ⟨⟨req, rsp⟩, due, hlog, rfl, hrest⟩ := hdue
  have hmem : (req, packet.item) ∈ log.due := by
    rw [hlog]
    exact List.mem_cons_self
  exact ⟨req, due, hlog, hrest, h.repeats _ hmem⟩

/-- Under the tag of an answer that comes waits the trace whose question it answers. -/
theorem Regular.waitingUnder_of_pop? (h : b.Regular config resolve log) {now : Nat}
    {packet : Packet Response} {rest : Port Response} {slot : PendingTrace} {req : Request}
    (hpop : b.server.link.responses.pop? now = some (packet, rest))
    (hget : b.checker.slots.get? packet.item.tag = some slot)
    (hquestion : packet.item.question = req) :
    b.checker.waitingUnder req.tag = [(slot.trace, req)] := by
  subst hquestion
  have hmem : packet.item.question ∈ b.server.outstanding :=
    Multiset.mem_add.mpr (.inl (mem_underway_of_pop?_responses hpop))
  obtain ⟨other, hother, -, hq⟩ := Sound.exists_slot h.tracks hmem
  cases hother.symm.trans hget
  exact waitingUnder_of_get? hget hq

/-- The trace that comes next is taken in behind all others. -/
theorem Regular.taken_of_pop? (h : b.Regular config resolve log) {now : Nat}
    {packet : Packet Trace} {rest : Port Trace}
    (hpop : b.checker.input.pop? now = some (packet, rest)) :
    b.given = log.taken ++ [packet.item] ++ rest.items := by
  rw [h.taken, Port.items_of_pop? hpop, List.append_assoc]
  rfl

theorem Regular.sorted_concat (h : b.Regular config resolve log) {last : Trace}
    (hlast : (last.resolves resolve || last.strays resolve) = true) :
    ∀ trace ∈ log.taken ++ [last], (trace.resolves resolve || trace.strays resolve) = true := by
  intro trace htrace
  rcases List.mem_append.mp htrace with htrace | htrace
  · exact h.sorted trace htrace
  · rwa [List.mem_singleton.mp htrace]

/-- A trace is judged by the answer to its own question. -/
theorem Regular.settle (h : b.Regular config resolve log) {now : Nat} {packet : Packet Response}
    {rest : Port Response} {slot : PendingTrace}
    (hpop : b.server.link.responses.pop? now = some (packet, rest))
    (hget : b.checker.slots.get? packet.item.tag = some slot) (hone : slot.remaining = 1) :
    ∃ log', (b.moved (b.checker.settle now packet.item slot.trace,
      { b.server.link with responses := rest })).Regular config resolve log' := by
  obtain ⟨req, due, hdue, hrest, hrepeats⟩ := h.due_of_pop? hpop
  have hquestion : packet.item.question = req := by
    rw [hrepeats]
    rfl
  have htag : packet.item.tag = req.tag := congrArg (·.tag) hquestion
  have hwaiting := h.waitingUnder_of_pop? hpop hget hquestion
  have hverdict : verdictOf now packet.item slot.trace
      = Verdict.judge req.addr req.bufferId slot.trace.isStore packet.item.entry now req.uuid := by
    rw [← hquestion]
    rfl
  refine ⟨{ log with
    fates := log.fates ++ [.judged slot.trace req packet.item.entry now]
    due := due }, ?_⟩
  have hsettled : (log.fates ++ [Fate.judged slot.trace req packet.item.entry now]).filterMap
      Fate.settled? = log.settled ++ [(slot.trace, req)] := by
    rw [List.filterMap_append]
    rfl
  refine ⟨h.configured, h.resolver, Tracks.move h.tracks (.settle hpop hget hone), h.taken,
    h.sorted, h.traces, h.questions, h.forwarded, fun tag => ?_, ?_, ?_, hrest,
    fun answer hanswer => ?_, ?_, ?_, ?_⟩
  · show _ = List.filter _ (List.filterMap _ _) ++ _
    rw [hsettled, moved, waitingUnder_settle, h.inTurn, List.filter_append, htag]
    by_cases heq : req.tag = tag
    · rw [if_pos heq.symm, ← heq, hwaiting]
      simp
    · rw [if_neg (Ne.symm heq)]
      simp [heq]
  · show _ = ((((log.fates ++ _).filterMap Fate.settled?).map (·.1) : List Trace) : Multiset Trace)
      + _
    have htracked : b.checker.tracked
        = {slot.trace} + (b.checker.settle now packet.item slot.trace).tracked :=
      @tracked_settle now _ _ _ h.tracks _ _ hget
    rw [hsettled, h.waiting, htracked, List.map_append, ← Multiset.coe_add, List.map_singleton,
      Multiset.coe_singleton, add_assoc]
    rfl
  · show b.server.answered = _
    rw [h.answered, hdue, List.filterMap_append, List.append_assoc]
    show _ = _ ++ ([(req, req.answer packet.item.entry)] ++ due)
    rw [← hrepeats]
    rfl
  · refine h.repeats answer ?_
    rw [hdue]
    exact List.mem_cons_of_mem _ hanswer
  · show b.checker.verdicts ++ [verdictOf now packet.item slot.trace] = _
    rw [h.verdicts, hverdict, List.filterMap_append]
    rfl
  · show _ = log.taken.filter _
    rw [← h.strayed, List.filterMap_append]
    exact List.append_nil _
  · show b.collected ++ (b.checker.output.packets ++ [⟨slot.trace, now, now + 1⟩]) = _
    rw [← List.append_assoc, h.output, List.filterMap_append]
    rfl

/-- A trace that resolves is neither judged nor let go when it is looked up. -/
theorem Regular.ask (h : b.Regular config resolve log) {now : Nat} {packet : Packet Trace}
    {rest : Port Trace} {access : MemAccess} {id : BufferId} {tag : Tag}
    {slots : SlotTable PendingTrace} (hpop : b.checker.input.pop? now = some (packet, rest))
    (haccess : packet.item.firstAccess? = some access)
    (hid : b.checker.resolve access.addr = some id)
    (halloc : b.checker.slots.allocate ⟨packet.item, 1⟩ = .ok (tag, slots)) :
    ∃ log', (b.moved (b.checker.asked slots rest,
      b.server.link.request (requestFor packet.item access.addr id tag) 1 now)).Regular config
        resolve log' := by
  have hq : question? b.checker.resolve tag packet.item
      = some (requestFor packet.item access.addr id tag) :=
    question?_eq_some_iff.mpr ⟨access, id, haccess, hid, rfl⟩
  have hresolves : packet.item.resolves resolve = true := by
    rw [Trace.resolves, haccess, Option.any_some, ← h.resolver, hid, Option.isSome_some]
  have hstrays : packet.item.strays resolve = false := by
    rw [Trace.strays, haccess, Option.any_some, ← h.resolver, hid, Option.isNone_some]
  have hcap : b.checker.slots.capacity ≤ 2 ^ 32 := h.tracks.slots.capacity
  obtain ⟨hfree, hwaiting⟩ := waitingUnder_asked hcap halloc hq rest
  refine ⟨{ log with
    taken := log.taken ++ [packet.item]
    asked := log.asked ++ [(packet.item, requestFor packet.item access.addr id tag)] }, ?_⟩
  refine ⟨h.configured, h.resolver, Tracks.move h.tracks (.ask hpop haccess hid halloc), ?_, ?_, ?_,
    ?_, ?_, fun other => ?_, ?_, h.answered, h.due, h.repeats, h.verdicts, ?_, h.output⟩
  · exact h.taken_of_pop? hpop
  · exact h.sorted_concat (by rw [hresolves, Bool.true_or])
  · rw [List.map_append, h.traces, List.filter_append, List.filter_cons_of_pos hresolves]
    rfl
  · simp only [List.mem_append, List.mem_singleton]
    rintro ask (hask | rfl)
    · exact h.questions ask hask
    · rw [← h.resolver]
      exact hq
  · show _ = b.server.fetched ++ (b.server.link.requests.send _ 1 now).items
    rw [List.map_append, h.forwarded, Port.items_send, Responder.forwarded, List.append_assoc]
    rfl
  · show List.filter _ (log.asked ++ _) = List.filter _ log.settled
      ++ (b.checker.asked slots rest).waitingUnder other
    rw [hwaiting, List.filter_append, h.inTurn]
    by_cases heq : other = tag
    · rw [if_pos heq, heq, hfree]
      simp [requestFor]
    · rw [if_neg heq]
      simp [requestFor, Ne.symm heq]
  · show _ = ((log.settled.map (·.1) : List Trace) : Multiset Trace)
      + (b.checker.asked slots rest).tracked
    have htracked : (b.checker.asked slots rest).tracked = b.checker.tracked + {packet.item} :=
      tracked_asked h.tracks halloc rest
    rw [htracked, List.map_append, ← Multiset.coe_add, h.waiting, add_assoc]
    rfl
  · show log.fates.filterMap _ = (log.taken ++ [packet.item]).filter _
    rw [h.strayed, List.filter_append,
      List.filter_cons_of_neg (by rw [hstrays]; exact Bool.false_ne_true)]
    exact (List.append_nil _).symm

/-- A trace that belongs to no buffer is let go or dropped, but not judged. -/
theorem Regular.unresolved (h : b.Regular config resolve log) {now : Nat} {packet : Packet Trace}
    {rest : Port Trace} {access : MemAccess}
    (hpop : b.checker.input.pop? now = some (packet, rest))
    (haccess : packet.item.firstAccess? = some access)
    (hnone : b.checker.resolve access.addr = none) :
    ∃ log', (b.moved ({ b.checker with input := rest }.unresolved now packet.item,
      b.server.link)).Regular config resolve log' := by
  have hresolves : packet.item.resolves resolve = false := by
    rw [Trace.resolves, haccess, Option.any_some, ← h.resolver, hnone, Option.isSome_none]
  have hstrays : packet.item.strays resolve = true := by
    rw [Trace.strays, haccess, Option.any_some, ← h.resolver, hnone, Option.isNone_none]
  obtain ⟨hconfig, hresolve, hslots, hinput, hverdicts⟩ :=
    unresolved_keeps now packet.item { b.checker with input := rest }
  have houtput := output_unresolved now packet.item { b.checker with input := rest }
  have htracks : ({ b.checker with input := rest }.unresolved now packet.item).Tracks
      b.server.outstanding := Tracks.move h.tracks (.unresolved hpop haccess hnone)
  generalize ({ b.checker with input := rest } : Checker).unresolved now packet.item = checker
    at hconfig hresolve hslots hinput hverdicts houtput htracks
  refine ⟨{ log with
    taken := log.taken ++ [packet.item]
    fates := log.fates ++ [.strayed packet.item now] }, ?_⟩
  have hsettled : (log.fates ++ [Fate.strayed packet.item now]).filterMap Fate.settled?
      = log.settled := by
    rw [List.filterMap_append]
    exact List.append_nil _
  refine ⟨hconfig.trans h.configured, hresolve.trans h.resolver, htracks, ?_, ?_, ?_, h.questions,
    h.forwarded, fun tag => ?_, ?_, ?_, h.due, h.repeats, ?_, ?_, ?_⟩
  · show b.given = log.taken ++ [packet.item] ++ checker.input.items
    rw [hinput]
    exact h.taken_of_pop? hpop
  · exact h.sorted_concat (by rw [hstrays, Bool.or_true])
  · rw [h.traces, List.filter_append,
      List.filter_cons_of_neg (by rw [hresolves]; exact Bool.false_ne_true)]
    exact (List.append_nil _).symm
  · show _ = List.filter _ (List.filterMap _ _) ++ checker.waitingUnder tag
    rw [hsettled, h.inTurn, waitingUnder, waitingUnder, hslots, hresolve]
  · show _ = ((((log.fates ++ _).filterMap Fate.settled?).map (·.1) : List Trace) : Multiset Trace)
      + checker.tracked
    rw [hsettled, h.waiting, tracked, tracked, hslots]
  · rw [List.filterMap_append]
    exact h.answered.trans (congrArg (· ++ _) (List.append_nil _).symm)
  · show checker.verdicts = _
    rw [hverdicts, List.filterMap_append]
    exact h.verdicts.trans (List.append_nil _).symm
  · rw [List.filterMap_append, List.filter_append, h.strayed, List.filter_cons_of_pos hstrays]
    rfl
  · show b.collected ++ checker.output.packets = _
    rw [houtput, ← List.append_assoc, h.output, List.filterMap_append, h.configured]

/-- **Every move of the checker keeps the accounts.** -/
theorem Regular.move (h : b.Regular config resolve log) {now : Nat} {next : Checker × Lookup.Link}
    (hmove : Move now (b.checker, b.server.link) next) :
    ∃ log', (b.moved next).Regular config resolve log' := by
  cases hmove with
  | settle hpop hget hone => exact h.settle hpop hget hone
  | stall hpop hnone =>
    exact ⟨log, h.configured, h.resolver, Tracks.move h.tracks (.stall hpop hnone), h.taken, h.sorted,
      h.traces, h.questions, h.forwarded, h.inTurn, h.waiting, h.answered, h.due, h.repeats,
      h.verdicts, h.strayed, h.output⟩
  | unresolved hpop haccess hnone => exact h.unresolved hpop haccess hnone
  | ask hpop haccess hid halloc => exact h.ask hpop haccess hid halloc

theorem Regular.moves (h : b.Regular config resolve log) {now : Nat} {next : Checker × Lookup.Link}
    (hmoves : Relation.ReflTransGen (Move now) (b.checker, b.server.link) next) :
    ∃ log', (b.moved next).Regular config resolve log' := by
  induction hmoves with
  | refl => exact ⟨log, h⟩
  | tail _ hmove ih =>
    obtain ⟨log', h'⟩ := ih
    exact h'.move hmove

/-! ### The events -/

theorem Regular.cycle (h : b.Regular config resolve log) (now : Nat) :
    ∃ log', (b.step (.cycle now)).Regular config resolve log' :=
  h.moves (Tracks.cycle h.tracks now).2

theorem Regular.give (h : b.Regular config resolve log) (trace : Trace) (delay now : Nat) :
    (b.step (.give trace delay now)).Regular config resolve log := by
  refine ⟨h.configured, h.resolver, h.tracks, ?_, h.sorted, h.traces, h.questions, h.forwarded,
    h.inTurn, h.waiting, h.answered, h.due, h.repeats, h.verdicts, h.strayed, h.output⟩
  show b.given ++ [trace] = log.taken ++ (b.checker.input.send trace delay now).items
  rw [h.taken, Port.items_send, List.append_assoc]

theorem Regular.collect (h : b.Regular config resolve log) (now : Nat) :
    (b.step (.collect now)).Regular config resolve log := by
  rw [step]
  split
  · exact h
  · rename_i packet rest hpop
    refine ⟨h.configured, h.resolver,
      ⟨h.tracks.slots, h.tracks.outstanding, h.tracks.single, h.tracks.room⟩, h.taken, h.sorted,
      h.traces, h.questions, h.forwarded, h.inTurn, h.waiting, h.answered, h.due, h.repeats,
      h.verdicts, h.strayed, ?_⟩
    show b.collected ++ [packet] ++ rest.packets = _
    rw [← h.output, (Port.pop?_eq_some_iff.mp hpop).1, List.append_assoc]
    rfl

theorem Regular.fetch (h : b.Regular config resolve log) (now : Nat) :
    (b.step (.fetch now)).Regular config resolve log := by
  refine ⟨h.configured, h.resolver, ?_, h.taken, h.sorted, h.traces, h.questions, ?_, h.inTurn,
    h.waiting, ?_, ?_, h.repeats, h.verdicts, h.strayed, h.output⟩
  · show b.checker.Tracks (b.server.fetch now).outstanding
    rw [Responder.outstanding_fetch]
    exact h.tracks
  · show _ = (b.server.fetch now).forwarded
    rw [Responder.forwarded_fetch]
    exact h.forwarded
  · show (b.server.fetch now).answered = _
    rw [Responder.answered_fetch]
    exact h.answered
  · show _ = (b.server.fetch now).link.responses.items
    rw [Responder.responses_fetch]
    exact h.due

theorem Regular.answer (h : b.Regular config resolve log) (pick : Nat) (entry : RangeEntry)
    (delay now : Nat) :
    ∃ log', (b.step (.answer pick entry delay now)).Regular config resolve log' := by
  have htracks : b.checker.Tracks
      (b.server.answer pick (fun req => req.answer entry) delay now).outstanding := by
    rw [Responder.outstanding_answer fun req => question_answer req entry]
    exact h.tracks
  have hforwarded : log.asked.map (·.2)
      = (b.server.answer pick (fun req => req.answer entry) delay now).forwarded := by
    rw [Responder.forwarded_answer]
    exact h.forwarded
  rw [step]
  rcases hpick : b.server.held[pick]? with _ | req
  · have hsame : b.server.answer pick (fun req => req.answer entry) delay now = b.server := by
      rw [Responder.answer, hpick]
    rw [hsame]
    exact ⟨log, h⟩
  · have hanswer : b.server.answer pick (fun req => req.answer entry) delay now
        = { b.server with
            link := b.server.link.respond (req.answer entry) delay now
            held := b.server.held.eraseIdx pick
            answered := b.server.answered ++ [(req, req.answer entry)] } := by
      rw [Responder.answer, hpick]
    rw [hanswer] at htracks hforwarded ⊢
    refine ⟨{ log with due := log.due ++ [(req, req.answer entry)] }, h.configured, h.resolver,
      htracks, h.taken, h.sorted, h.traces, h.questions, hforwarded, h.inTurn, h.waiting, ?_, ?_,
      fun answer hmem => ?_, h.verdicts, h.strayed, h.output⟩
    · show b.server.answered ++ _ = _
      rw [h.answered, List.append_assoc]
    · show _ = (b.server.link.responses.send (req.answer entry) delay now).items
      rw [List.map_append, h.due, Port.items_send]
      rfl
    · rcases List.mem_append.mp hmem with hmem | hmem
      · exact h.repeats answer hmem
      · rw [List.mem_singleton.mp hmem]
        rfl

theorem Regular.step (h : b.Regular config resolve log) (event : Event) :
    ∃ log', (b.step event).Regular config resolve log' := by
  cases event with
  | give trace delay now => exact ⟨log, h.give trace delay now⟩
  | collect now => exact ⟨log, h.collect now⟩
  | cycle now => exact h.cycle now
  | fetch now => exact ⟨log, h.fetch now⟩
  | answer pick entry delay now => exact h.answer pick entry delay now

theorem Regular.after (h : b.Regular config resolve log) (events : List Event) :
    ∃ log', (b.after events).Regular config resolve log' := by
  induction events generalizing b log with
  | nil => exact ⟨log, h⟩
  | cons event events ih =>
    obtain ⟨log', h'⟩ := h.step event
    exact ih h'

/-! ## Accounts -/

/-- An answer that is visible is taken in, however the cycle ends. -/
theorem Regular.prompt (h : b.Regular config resolve log) {now : Nat} {packet : Packet Response}
    {rest : Port Response} (hpop : b.server.link.responses.pop? now = some (packet, rest)) :
    ∃ trace, (b.step (.cycle now)).checker.verdicts
      = b.checker.verdicts ++ [verdictOf now packet.item trace] := by
  obtain ⟨slot, -, -, hresponse⟩ := Tracks.takeResponse_eq h.tracks hpop
  refine ⟨slot.trace, ?_⟩
  show (b.checker.cycle now b.server.link).state.1.verdicts = _
  rw [cycle_of_takeResponse hresponse, verdicts_issue]
  rfl

theorem Regular.accounted (h : b.Regular config resolve log) : b.Accounted config resolve log where
  known now := (Tracks.cycle h.tracks now).1
  tags := by
    rw [Sound.map_tag h.tracks]
    exact SlotTable.count_map_fst_held h.tracks.slots.capacity
  taken := h.taken
  sorted := h.sorted
  traces := h.traces
  questions := h.questions
  forwarded := h.forwarded
  inTurn := h.inTurn
  waiting := h.waiting
  settled hzero := by
    have hout := h.tracks.outstanding
    rw [hzero, Multiset.map_zero, outstanding, Multiset.map_eq_zero] at hout
    rw [tracked, Multiset.map_eq_zero]
    exact hout
  answered := h.answered
  due := h.due
  prompt _ _ _ := h.prompt
  verdicts := h.verdicts
  strayed := h.strayed
  output := h.output

theorem regular_new {config : CheckerConfig} (hsize : config.queueSize.toNat ≤ 2 ^ 32) (id : UInt64)
    (resolve : Address → Option BufferId) :
    ({ checker := .new id config resolve } : Bench).Regular config resolve {} where
  configured := rfl
  resolver := rfl
  tracks := by
    refine ⟨SlotTable.wellFormed_ofCapacity hsize, ?_, fun slot hslot => ?_, Nat.zero_le _⟩
    · show (SlotTable.held (.ofCapacity _)).map _ = _
      rw [SlotTable.held_ofCapacity]
      rfl
    · change slot ∈ SlotTable.held (.ofCapacity _) at hslot
      rw [SlotTable.held_ofCapacity] at hslot
      exact absurd hslot (Multiset.notMem_zero slot)
  taken := rfl
  sorted _ htrace := absurd htrace List.not_mem_nil
  traces := rfl
  questions _ hask := absurd hask List.not_mem_nil
  forwarded := rfl
  inTurn tag := by
    show _ = _ ++ ((SlotTable.get? (.ofCapacity _) tag).bind _).toList
    rw [SlotTable.get?_ofCapacity]
    rfl
  waiting := by
    show (0 : Multiset Trace) = 0 + (SlotTable.held (.ofCapacity _)).map _
    rw [SlotTable.held_ofCapacity]
    rfl
  answered := rfl
  due := rfl
  repeats _ hanswer := absurd hanswer List.not_mem_nil
  verdicts := rfl
  strayed := rfl
  output := rfl

/-- **A checker judges each trace once, by the answer to its own question**, whatever is sent to it
and whenever it works, in front of any server that answers each lookup once. -/
theorem each_judged_once {config : CheckerConfig} (hsize : config.queueSize.toNat ≤ 2 ^ 32)
    (id : UInt64) (resolve : Address → Option BufferId) (events : List Event) :
    ∃ log, (({ checker := .new id config resolve } : Bench).after events).Accounted config resolve
      log := by
  obtain ⟨log, hlog⟩ := (regular_new hsize id resolve).after events
  exact ⟨log, hlog.accounted⟩

/-- Two slots for four traces, the second of which belongs to no buffer and is let go.  A cycle is
cut short because the slots are all in use; then the second lookup is answered before the first
one, and its tag is given out again in the same cycle. -/
theorem each_judged_once_of_four :
    (2 : UInt64).toNat ≤ 2 ^ 32 ∧
    ∃ log, (({ checker := .new 0 { queueSize := 2, unresolved := .forward } fun addr =>
        if addr < 0x1000 then some 1 else none } : Bench).after
      [.give (.load 1 0x100 4) 1 0, .give (.load 2 0x2000 4) 1 0, .give (.store 3 0x200 4) 1 0,
        .give (.load 4 0x300 4) 1 0, .cycle 1, .cycle 2, .cycle 3, .cycle 4, .fetch 4, .fetch 4,
        .answer 1 ⟨1, 0x200, 8, true, 0⟩ 1 4, .cycle 5, .answer 0 .sentinel 2 5, .cycle 6, .cycle 7,
        .collect 8]).Accounted { queueSize := 2, unresolved := .forward }
          (fun addr => if addr < 0x1000 then some 1 else none) log :=
  ⟨by decide, each_judged_once (by decide) _ _ _⟩

end Bench

end Checker

end BoundsCheck
