import Mathlib.Logic.Relation
import BoundsCheck.Checker
import BoundsCheck.Proofs.Slots
import BoundsCheck.Proofs.Underway

/-!
# The moves of a checker

A cycle of a checker is at most two moves: an answer settles the trace that waited for it, and the
next trace is looked up, let go, dropped or left where it is.  As long as the lookups pending in
the cache are those that the slots of the checker wait for, every cycle is made of such moves and
none is cut short.

* `Checker.question?` — the question that is asked for a trace.
* `Checker.Move` — all a checker ever does, one constructor for each move.
* `Checker.Sound` — the slots wait for the pending lookups, and there is room for all traces.
* `Checker.Sound.cycle` — a cycle goes through and is made of moves.
-/

set_option autoImplicit false

namespace BoundsCheck.Checker

open Lookup

/-! ## Questions and moves -/

/-- The question that is asked for a trace under a tag, if its first access has an address that
belongs to a buffer. -/
def question? (resolve : Address → Option BufferId) (tag : Tag) (trace : Trace) : Option Request :=
  trace.firstAccess?.bind fun access =>
    (resolve access.addr).map fun id => requestFor trace access.addr id tag

/-- The questions that the slots wait for. -/
def outstanding (c : Checker) : Multiset (Option Request) :=
  c.slots.held.map fun slot => question? c.resolve slot.1 slot.2.trace

theorem question?_eq_some_iff {resolve : Address → Option BufferId} {tag : Tag} {trace : Trace}
    {req : Request} :
    question? resolve tag trace = some req ↔
      ∃ access id, trace.firstAccess? = some access ∧ resolve access.addr = some id ∧
        req = requestFor trace access.addr id tag := by
  simp only [question?, Option.bind_eq_some_iff, Option.map_eq_some_iff]
  constructor
  · rintro ⟨access, haccess, id, hid, rfl⟩
    exact ⟨access, id, haccess, hid, rfl⟩
  · rintro ⟨access, id, haccess, hid, rfl⟩
    exact ⟨access, haccess, id, hid, rfl⟩

/-- The checker after the answer for a trace has come, which it then lets go. -/
def settle (now : Nat) (rsp : Response) (trace : Trace) (c : Checker) : Checker :=
  { (c.countResponse.record (verdictOf now rsp trace)).emit now trace with
    slots := c.slots.without rsp.tag }

/-- The checker after it has asked for the entry of the buffer of a trace. -/
def asked (slots : SlotTable PendingTrace) (rest : Port Trace) (c : Checker) : Checker :=
  { c with
    slots := slots
    input := rest
    stats.traces := c.stats.traces + 1
    stats.lookups := c.stats.lookups + 1 }

/-- All that a checker ever does in front of a cache. -/
inductive Move (now : Nat) : Checker × Lookup.Link → Checker × Lookup.Link → Prop
  /-- The answer for a trace has come. -/
  | settle {c : Checker} {l1 : Lookup.Link} {packet : Packet Response} {rest : Port Response}
      {pending : PendingTrace} (hpop : l1.responses.pop? now = some (packet, rest))
      (hget : c.slots.get? packet.item.tag = some pending) (hone : pending.remaining = 1) :
      Move now (c, l1) (c.settle now packet.item pending.trace, { l1 with responses := rest })
  /-- The next trace has nothing to check. -/
  | stall {c : Checker} {l1 : Lookup.Link} {packet : Packet Trace} {rest : Port Trace}
      (hpop : c.input.pop? now = some (packet, rest))
      (hnone : packet.item.firstAccess? = none) : Move now (c, l1) (c.stall, l1)
  /-- The next trace belongs to no buffer. -/
  | unresolved {c : Checker} {l1 : Lookup.Link} {packet : Packet Trace} {rest : Port Trace}
      {access : MemAccess} (hpop : c.input.pop? now = some (packet, rest))
      (haccess : packet.item.firstAccess? = some access) (hnone : c.resolve access.addr = none) :
      Move now (c, l1) ({ c with input := rest }.unresolved now packet.item, l1)
  /-- The next trace is looked up. -/
  | ask {c : Checker} {l1 : Lookup.Link} {packet : Packet Trace} {rest : Port Trace}
      {access : MemAccess} {id : BufferId} {tag : Tag} {slots : SlotTable PendingTrace}
      (hpop : c.input.pop? now = some (packet, rest))
      (haccess : packet.item.firstAccess? = some access) (hid : c.resolve access.addr = some id)
      (halloc : c.slots.allocate ⟨packet.item, 1⟩ = .ok (tag, slots)) :
      Move now (c, l1)
        (c.asked slots rest, l1.request (requestFor packet.item access.addr id tag) 1 now)

/-! ## Soundness -/

/-- The slots of a checker wait for the pending lookups, each for one of them, and there is a slot
for each trace that waits to be looked up. -/
structure Sound (pending : Multiset Request) (c : Checker) : Prop where
  /-- The slots are counted, and each has a tag. -/
  slots : c.slots.WellFormed
  /-- The slots wait for the pending lookups. -/
  outstanding : c.outstanding = pending.map some
  /-- Each slot waits for a single answer. -/
  single : ∀ slot ∈ c.slots.held, slot.2.remaining = 1
  /-- There is a slot for each trace that was given to the checker. -/
  room : c.inFlight + c.input.length ≤ c.capacity

variable {now : Nat} {c c' : Checker} {l1 l1' : Lookup.Link} {rest : Multiset Request}

/-- A pending lookup is the question for the trace in the slot of its tag. -/
theorem Sound.exists_slot {pending : Multiset Request} (h : c.Sound pending) {req : Request}
    (hreq : req ∈ pending) :
    ∃ slot, c.slots.get? req.tag = some slot ∧ slot.remaining = 1 ∧
      question? c.resolve req.tag slot.trace = some req := by
  have hmem : some req ∈ c.outstanding := by
    rw [h.outstanding]
    exact Multiset.mem_map_of_mem _ hreq
  obtain ⟨⟨tag, slot⟩, hslot, hq⟩ := Multiset.mem_map.mp hmem
  have htag : tag = req.tag := by
    obtain ⟨access, id, -, -, rfl⟩ := question?_eq_some_iff.mp hq
    rfl
  subst htag
  exact ⟨slot, SlotTable.get?_of_mem_held h.slots.capacity hslot, h.single _ hslot, hq⟩

theorem Sound.settle (h : c.Sound (underway l1 + rest)) {packet : Packet Response}
    {others : Port Response} {pending : PendingTrace}
    (hpop : l1.responses.pop? now = some (packet, others))
    (hget : c.slots.get? packet.item.tag = some pending) :
    (c.settle now packet.item pending.trace).Sound
      (underway { l1 with responses := others } + rest) := by
  obtain ⟨hwf, hcap, hused, hheld⟩ := h.slots.without hget
  have hmem : packet.item.question ∈ underway l1 + rest :=
    Multiset.mem_add.mpr (.inl (mem_underway_of_pop?_responses hpop))
  obtain ⟨slot, hslot, -, hq⟩ := h.exists_slot hmem
  have hsame : slot = pending := Option.some.inj (hslot.symm.trans hget)
  subst hsame
  refine ⟨hwf, ?_, fun other hother => h.single other ?_, ?_⟩
  · have hout := h.outstanding
    rw [Checker.outstanding, hheld, underway_of_pop?_responses hpop, add_assoc, Multiset.map_add,
      Multiset.map_add, Multiset.map_singleton, Multiset.map_singleton] at hout
    change {question? c.resolve packet.item.tag slot.trace} + _ = _ at hout
    change question? c.resolve packet.item.tag slot.trace = _ at hq
    rw [hq, add_right_inj] at hout
    exact hout
  · rw [hheld]
    exact Multiset.mem_add.mpr (.inr hother)
  · have hroom := h.room
    simp only [inFlight, capacity, Checker.settle, emit, record, countResponse] at hroom ⊢
    omega

theorem Sound.unresolved (h : c.Sound (underway l1 + rest)) {packet : Packet Trace}
    {others : Port Trace} (hpop : c.input.pop? now = some (packet, others)) :
    ({ c with input := others }.unresolved now packet.item).Sound (underway l1 + rest) := by
  have hlen := Port.length_of_pop? hpop
  have hroom := h.room
  rw [Checker.unresolved]
  split
  · exact ⟨h.slots, h.outstanding, h.single, by simp only [inFlight, capacity] at hroom ⊢; omega⟩
  · exact ⟨h.slots, h.outstanding, h.single,
      by simp only [inFlight, capacity, emit] at hroom ⊢; omega⟩

theorem Sound.asked (h : c.Sound (underway l1 + rest)) {packet : Packet Trace}
    {others : Port Trace} {access : MemAccess} {id : BufferId} {tag : Tag}
    {slots : SlotTable PendingTrace} (hpop : c.input.pop? now = some (packet, others))
    (haccess : packet.item.firstAccess? = some access) (hid : c.resolve access.addr = some id)
    (halloc : c.slots.allocate ⟨packet.item, 1⟩ = .ok (tag, slots)) :
    (c.asked slots others).Sound
      (underway (l1.request (requestFor packet.item access.addr id tag) 1 now) + rest) := by
  obtain ⟨hwf, hcap, hused, hheld⟩ := h.slots.of_allocate halloc
  have hlen := Port.length_of_pop? hpop
  have hroom := h.room
  have hq : question? c.resolve tag packet.item
      = some (requestFor packet.item access.addr id tag) :=
    question?_eq_some_iff.mpr ⟨access, id, haccess, hid, rfl⟩
  refine ⟨hwf, ?_, fun slot hslot => ?_, ?_⟩
  · have hout := h.outstanding
    rw [Checker.outstanding] at hout
    show slots.held.map (fun slot => question? c.resolve slot.1 slot.2.trace) = _
    rw [hheld, Multiset.map_add, hout, Multiset.map_singleton, hq, underway_request]
    simp only [Multiset.map_add, Multiset.map_singleton]
    abel
  · change slot ∈ slots.held at hslot
    rw [hheld, Multiset.mem_add, Multiset.mem_singleton] at hslot
    rcases hslot with hslot | rfl
    · exact h.single slot hslot
    · rfl
  · simp only [inFlight, capacity, Checker.asked] at hroom ⊢
    omega

/-- **Every move keeps a checker sound.** -/
theorem Sound.move (h : c.Sound (underway l1 + rest)) (hmove : Move now (c, l1) (c', l1')) :
    c'.Sound (underway l1' + rest) := by
  cases hmove with
  | settle hpop hget _ => exact h.settle hpop hget
  | stall _ _ => exact ⟨h.slots, h.outstanding, h.single, h.room⟩
  | unresolved hpop _ _ => exact h.unresolved hpop
  | ask hpop haccess hid halloc => exact h.asked hpop haccess hid halloc

/-- So do several moves. -/
theorem Sound.moves (h : c.Sound (underway l1 + rest)) {next : Checker × Lookup.Link}
    (hmoves : Relation.ReflTransGen (Move now) (c, l1) next) :
    next.1.Sound (underway next.2 + rest) := by
  induction hmoves with
  | refl => exact h
  | tail _ hmove ih => exact ih.move hmove

/-! ## Cycles -/

theorem complete_eq {rsp : Response} {pending : PendingTrace}
    (hget : c.slots.get? rsp.tag = some pending) (hone : pending.remaining = 1) :
    c.complete now rsp = .ok (c.settle now rsp pending.trace) := by
  obtain ⟨hmodify, hrelease⟩ := SlotTable.release_of_modify hget
    fun pending => { pending with remaining := pending.remaining - 1 }
  have hzero : pending.remaining - 1 = 0 := by rw [hone]
  simp only [complete, countResponse, hmodify, hzero, if_true, finish, record] at hrelease ⊢
  rw [hrelease]
  rfl

/-- Either no answer is visible, or one is taken in with a move. -/
theorem Sound.takeResponse_cases (h : c.Sound (underway l1 + rest)) (now : Nat) :
    (l1.responses.pop? now = none ∧ c.takeResponse now l1 = .ok (c, l1)) ∨
      ∃ next, Move now (c, l1) next ∧ c.takeResponse now l1 = .ok next := by
  rw [Checker.takeResponse]
  rcases hpop : l1.responses.pop? now with _ | ⟨packet, others⟩
  · exact .inl ⟨rfl, rfl⟩
  · have hmem : packet.item.question ∈ underway l1 + rest :=
      Multiset.mem_add.mpr (.inl (mem_underway_of_pop?_responses hpop))
    obtain ⟨slot, hslot, hone, -⟩ := h.exists_slot hmem
    simp only [complete_eq hslot hone]
    exact .inr ⟨_, .settle hpop hslot hone, rfl⟩

/-- Either no trace is visible, or one is taken in with a move. -/
theorem Sound.issue_cases (h : c.Sound (underway l1 + rest)) (now : Nat) :
    (c.input.pop? now = none ∧ c.issue now l1 = .ok (c, l1)) ∨
      ∃ next, Move now (c, l1) next ∧ c.issue now l1 = .ok next := by
  rw [Checker.issue]
  rcases hpop : c.input.pop? now with _ | ⟨packet, others⟩
  · exact .inl ⟨rfl, rfl⟩
  · refine .inr ?_
    rcases haccess : packet.item.firstAccess? with _ | access
    · simp only [haccess]
      exact ⟨_, .stall hpop haccess, rfl⟩
    · rcases hid : c.resolve access.addr with _ | id
      · simp only [haccess, hid]
        exact ⟨_, .unresolved hpop haccess hid, rfl⟩
      · -- the trace at hand counts against the capacity, so a slot is left for it
        have hroom : c.slots.used < c.slots.capacity := by
          have hroom := h.room
          have hlen := Port.length_of_pop? hpop
          simp only [inFlight, capacity] at hroom
          omega
        obtain ⟨tag, slots, halloc⟩ := h.slots.exists_allocate hroom ⟨packet.item, 1⟩
        simp only [haccess, hid, lookUp, halloc]
        exact ⟨_, .ask hpop haccess hid halloc, rfl⟩

/-- Once an answer was taken in, a cycle goes on with a trace. -/
theorem cycle_of_takeResponse {first : Checker × Lookup.Link}
    (h : c.takeResponse now l1 = .ok first) : c.cycle now l1 = first.1.issue now first.2 := by
  rw [Checker.cycle, h]
  rfl

/-- **A cycle of a sound checker goes through and is made of moves.** -/
theorem Sound.cycle (h : c.Sound (underway l1 + rest)) (now : Nat) :
    (c.cycle now l1).error? = none ∧
      Relation.ReflTransGen (Move now) (c, l1) (c.cycle now l1).state := by
  obtain ⟨first, hmove, heq⟩ : ∃ first, Relation.ReflGen (Move now) (c, l1) first ∧
      c.takeResponse now l1 = .ok first := by
    rcases h.takeResponse_cases now with ⟨-, heq⟩ | ⟨next, hmove, heq⟩
    · exact ⟨_, .refl, heq⟩
    · exact ⟨next, .single hmove, heq⟩
  obtain ⟨second, hmove', heq'⟩ : ∃ second, Relation.ReflGen (Move now) first second ∧
      first.1.issue now first.2 = .ok second := by
    rcases (h.moves hmove.to_reflTransGen).issue_cases now with ⟨-, heq'⟩ | ⟨next, hmove', heq'⟩
    · exact ⟨_, .refl, heq'⟩
    · exact ⟨next, .single hmove', heq'⟩
  rw [cycle_of_takeResponse heq, heq']
  exact ⟨rfl, hmove.to_reflTransGen.trans hmove'.to_reflTransGen⟩

end BoundsCheck.Checker
