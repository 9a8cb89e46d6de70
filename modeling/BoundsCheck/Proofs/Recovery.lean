import BoundsCheck.Proofs.Keeping
import BoundsCheck.Proofs.Tracking

/-!
# Cycles that are cut short

A checker whose server answers what it was never asked, or that is sent more traces than it has
slots for, meets errors in the middle of its cycles.  It goes on from there as if nothing had
happened.  An answer for a free slot is thrown away and counted.  A trace that finds no slot stays
in front of the input, and since an answer for a slot in use always gives it back — every slot waits
for a single answer — the trace gets the slot of the next such answer, in the same cycle.

* `Checker.Exposed.Event` — what happens to a checker in front of a server that may do anything.
* `Checker.Exposed.Contained` — what a cycle that is cut short leaves behind.
* `Checker.Exposed.Regular` — every slot in use waits for a single answer.
* `Checker.Exposed.Regular.cycle_cases` — the answer that a cycle begins with.
* `Checker.Exposed.Stuck` — the slots are all in use, and this trace is the first to need one.
* `Checker.Exposed.failing_cycles_lose_nothing` — no cycle of such a checker does more harm.
-/

set_option autoImplicit false

namespace BoundsCheck.Checker

open Lookup

variable {now : Nat} {c : Checker} {l1 : Lookup.Link}

namespace Exposed

/-! ## Checkers in front of any server -/

/-- What happens to a checker. -/
inductive Event
  /-- A trace is sent to the checker. -/
  | give (trace : Trace) (delay now : Nat)
  /-- A trace is taken from the checker, if one is visible. -/
  | collect (now : Nat)
  /-- All verdicts are taken from the checker. -/
  | handOver
  /-- The checker works, above a link on which anything may be under way. -/
  | cycle (now : Nat) (l1 : Lookup.Link)
  /-- The checker is reset. -/
  | reset

/-- The checker after an event. -/
def step (c : Checker) : Event → Checker
  | .give trace delay now => { c with input := c.input.send trace delay now }
  | .collect now =>
    match c.output.pop? now with
    | none => c
    | some (_, rest) => { c with output := rest }
  | .handOver => c.dropVerdicts
  | .cycle now l1 => (c.cycle now l1).state.1
  | .reset => c.reset

/-- The checker after several events. -/
def after (events : List Event) (c : Checker) : Checker := events.foldl step c

/-- The event takes a trace from its slot: it is a cycle that takes in an answer for a slot in use,
or a reset. -/
def frees (c : Checker) : Event → Bool
  | .cycle now l1 =>
    (l1.responses.pop? now).any fun answer => c.slots.contains answer.1.item.tag
  | .reset => true
  | _ => false

/-- None of the events takes a trace from its slot. -/
def holds (c : Checker) : List Event → Bool
  | [] => true
  | event :: rest => !frees c event && holds (step c event) rest

/-- A cycle comes to a trace that needs a slot, but there is none. -/
structure Starves (now : Nat) (l1 : Lookup.Link) (packet : Packet Trace) (access : MemAccess)
    (id : BufferId) (c : Checker) : Prop where
  /-- No answer is visible, -/
  silent : l1.responses.pop? now = none
  /-- all slots are in use, -/
  full : ∀ tag : Tag, tag.toNat < c.capacity → c.slots.contains tag = true
  /-- the trace is visible, -/
  visible : ∃ rest, c.input.pop? now = some (packet, rest)
  /-- it has an access, -/
  first : packet.item.firstAccess? = some access
  /-- and the address of this access belongs to a buffer. -/
  buffer : c.resolve access.addr = some id

/-- A cycle takes the first trace from the input and looks it up. -/
structure Issues (now : Nat) (l1 : Lookup.Link) (packet : Packet Trace) (req : Request)
    (c : Checker) : Prop where
  /-- The cycle goes through. -/
  through : (c.cycle now l1).error? = none
  /-- The trace leaves the input, -/
  input : ∃ rest, c.input.packets = packet :: rest ∧ (c.cycle now l1).state.1.input = ⟨rest⟩
  /-- waits in a slot, -/
  slot : (c.cycle now l1).state.1.slots.get? req.tag = some ⟨packet.item, 1⟩
  /-- and its question is asked. -/
  asked : (c.cycle now l1).state.2.requests = l1.requests.send req 1 now

/-- What a cycle that is cut short leaves of a checker with so many slots. -/
structure Contained (size now : Nat) (l1 : Lookup.Link) (c : Checker) : Prop where
  /-- For want of a slot nothing happens, and the trace that needs one is looked up in the next
  cycle that takes in an answer for a slot in use. -/
  exhausted : ∀ k, (c.cycle now l1).error? = some (.exhausted k) →
    k = size ∧ c.capacity = size ∧ (c.cycle now l1).state = (c, l1) ∧
      ∃ packet access id, Starves now l1 packet access id c ∧
        ∀ events, holds c events = true → ∀ later answers rsp rest, now ≤ later →
          answers.responses.pop? later = some (rsp, rest) →
            (after events c).slots.contains rsp.item.tag = true →
              Issues later answers packet (requestFor packet.item access.addr id rsp.item.tag)
                (after events c)
  /-- A tag is unknown if an answer for a slot that is free is visible, and only then. -/
  unknown : ∀ tag, (c.cycle now l1).error? = some (.unknownTag tag) ↔
    ∃ packet rest, l1.responses.pop? now = some (packet, rest) ∧ packet.item.tag = tag ∧
      c.slots.contains tag = false
  /-- The answer is then gone and counted, and nothing else happens. -/
  consumed : ∀ packet rest, l1.responses.pop? now = some (packet, rest) →
    c.slots.contains packet.item.tag = false →
      (c.cycle now l1).state = ({ c with stats.responses := c.stats.responses + 1 },
        { l1 with responses := rest })

end Exposed

/-! ## The answer a cycle begins with -/

theorem cycle_of_silent (hpop : l1.responses.pop? now = none) :
    c.cycle now l1 = c.issue now l1 := by
  have htake : c.takeResponse now l1 = .ok (c, l1) := by rw [takeResponse, hpop]
  exact cycle_of_takeResponse htake

/-- The answer settles the trace in the slot, if this waits for nothing else. -/
theorem cycle_of_get? {packet : Packet Response} {rest : Port Response} {slot : PendingTrace}
    (hpop : l1.responses.pop? now = some (packet, rest))
    (hget : c.slots.get? packet.item.tag = some slot) (hone : slot.remaining = 1) :
    c.cycle now l1 = (c.settle now packet.item slot.trace).issue now
      { l1 with responses := rest } := by
  have htake : c.takeResponse now l1
      = .ok (c.settle now packet.item slot.trace, { l1 with responses := rest }) := by
    rw [takeResponse, hpop]
    simp only [complete_eq hget hone]
    rfl
  exact cycle_of_takeResponse htake

/-- An answer for a slot that is free ends the cycle. -/
theorem cycle_of_free {packet : Packet Response} {rest : Port Response}
    (hpop : l1.responses.pop? now = some (packet, rest))
    (hfree : c.slots.contains packet.item.tag = false) :
    c.cycle now l1
      = .fail (c.countResponse, { l1 with responses := rest }) (.unknownTag packet.item.tag) := by
  have hget : c.slots.get? packet.item.tag = none := by
    simpa [SlotTable.contains] using hfree
  have hmodify : ∀ f, c.slots.modify packet.item.tag f = .error (.unknownTag packet.item.tag) :=
    fun f => by rw [SlotTable.modify, hget]
  have hcomplete : c.complete now packet.item
      = .fail c.countResponse (.unknownTag packet.item.tag) := by
    simp only [complete, countResponse, hmodify]
  rw [cycle, takeResponse, hpop]
  simp only [hcomplete]
  rfl

/-! ## The trace it goes on with -/

/-- The first trace in the input needs a slot. -/
theorem issue_of_resolves {packet : Packet Trace} {rest : Port Trace} {access : MemAccess}
    {id : BufferId} (hpop : c.input.pop? now = some (packet, rest))
    (haccess : packet.item.firstAccess? = some access) (hid : c.resolve access.addr = some id) :
    c.issue now l1 = c.lookUp now packet.item access.addr id rest l1 := by
  simp only [issue, hpop, haccess, hid]

/-- Without a slot for it nothing happens. -/
theorem lookUp_of_error {trace : Trace} {addr : Address} {id : BufferId} {rest : Port Trace}
    {e : SlotTable.Error} (halloc : c.slots.allocate ⟨trace, 1⟩ = .error e) :
    c.lookUp now trace addr id rest l1 = .fail (c, l1) e := by
  rw [lookUp, halloc]

theorem lookUp_of_ok {trace : Trace} {addr : Address} {id : BufferId} {rest : Port Trace}
    {tag : Tag} {slots : SlotTable PendingTrace}
    (halloc : c.slots.allocate ⟨trace, 1⟩ = .ok (tag, slots)) :
    c.lookUp now trace addr id rest l1
      = .ok (c.asked slots rest, l1.request (requestFor trace addr id tag) 1 now) := by
  rw [lookUp, halloc]
  rfl

/-- Only the search for a slot may fail when a trace is taken in. -/
theorem allocate_of_error?_issue {e : SlotTable.Error} (h : (c.issue now l1).error? = some e) :
    ∃ packet rest access id, c.input.pop? now = some (packet, rest) ∧
      packet.item.firstAccess? = some access ∧ c.resolve access.addr = some id ∧
        c.slots.allocate ⟨packet.item, 1⟩ = .error e := by
  rcases hpop : c.input.pop? now with _ | ⟨packet, rest⟩
  · rw [issue, hpop] at h
    cases h
  · rcases haccess : packet.item.firstAccess? with _ | access
    · simp only [issue, hpop, haccess] at h
      cases h
    · rcases hid : c.resolve access.addr with _ | id
      · simp only [issue, hpop, haccess, hid] at h
        cases h
      · rw [issue_of_resolves hpop haccess hid] at h
        rcases halloc : c.slots.allocate ⟨packet.item, 1⟩ with e' | ⟨tag, slots⟩
        · rw [lookUp_of_error halloc] at h
          obtain rfl := Option.some.inj h
          exact ⟨packet, rest, access, id, rfl, haccess, hid, halloc⟩
        · rw [lookUp_of_ok halloc] at h
          cases h

namespace Exposed

/-! ## Slots that wait for a single answer -/

/-- Every slot in use waits for a single answer. -/
structure Regular (size : Nat) (c : Checker) : Prop where
  /-- The slots are counted, and each has a tag. -/
  slots : c.slots.WellFormed
  /-- There are as many as there were. -/
  capacity : c.capacity = size
  /-- Each of them waits for a single answer. -/
  single : ∀ tag slot, c.slots.get? tag = some slot → slot.remaining = 1

variable {size : Nat} {c' : Checker} {l1' : Lookup.Link}

/-- What becomes of the rest of the checker makes no difference. -/
theorem Regular.congr (h : Regular size c) (hslots : c'.slots = c.slots) : Regular size c' := by
  refine ⟨hslots ▸ h.slots, ?_, hslots ▸ h.single⟩
  rw [← h.capacity, Checker.capacity, Checker.capacity, hslots]

theorem regular_of_unused (hsize : size ≤ 2 ^ 32) (hslots : c.slots = .ofCapacity size) :
    Regular size c := by
  refine ⟨?_, ?_, fun tag slot hget => ?_⟩
  · rw [hslots]
    exact SlotTable.wellFormed_ofCapacity hsize
  · rw [Checker.capacity, hslots, SlotTable.capacity, SlotTable.ofCapacity, List.length_replicate]
  · rw [hslots, SlotTable.get?_ofCapacity] at hget
    cases hget

theorem Regular.settle (h : Regular size c) {rsp : Response} {slot : PendingTrace}
    (hget : c.slots.get? rsp.tag = some slot) : Regular size (c.settle now rsp slot.trace) := by
  obtain ⟨hwf, hcap, -, -⟩ := h.slots.without hget
  refine ⟨hwf, hcap.trans h.capacity, fun tag other hother => ?_⟩
  change (c.slots.without rsp.tag).get? tag = some other at hother
  rw [SlotTable.get?_without] at hother
  split at hother
  · cases hother
  · exact h.single tag other hother

theorem Regular.asked (h : Regular size c) {trace : Trace} {tag : Tag}
    {slots : SlotTable PendingTrace} (halloc : c.slots.allocate ⟨trace, 1⟩ = .ok (tag, slots))
    (rest : Port Trace) : Regular size (c.asked slots rest) := by
  obtain ⟨hwf, hcap, -, -⟩ := h.slots.of_allocate halloc
  refine ⟨hwf, hcap.trans h.capacity, fun other slot hslot => ?_⟩
  change slots.get? other = some slot at hslot
  rw [(SlotTable.get?_of_allocate h.slots.capacity halloc).2] at hslot
  split at hslot
  · cases hslot
    rfl
  · exact h.single other slot hslot

theorem Regular.move (h : Regular size c) (hmove : Move now (c, l1) (c', l1')) :
    Regular size c' := by
  cases hmove with
  | settle _ hget _ => exact h.settle hget
  | stall _ _ => exact h.congr rfl
  | unresolved _ _ _ => exact h.congr (unresolved_keeps ..).2.2.1
  | ask _ _ _ halloc => exact h.asked halloc _

theorem Regular.issue (h : Regular size c) (now : Nat) (l1 : Lookup.Link) :
    Regular size (c.issue now l1).state.1 := by
  have hmoves := (c.issue_moves l1 now).2
  generalize (c.issue now l1).state = next at hmoves
  cases hmoves with
  | refl => exact h
  | single hmove => exact h.move hmove

/-- A cycle begins without an answer, with one that settles a trace, or with one for a slot that is
free. -/
theorem Regular.cycle_cases (h : Regular size c) (now : Nat) (l1 : Lookup.Link) :
    (l1.responses.pop? now = none ∧ c.cycle now l1 = c.issue now l1) ∨
      ∃ answer rest, l1.responses.pop? now = some (answer, rest) ∧
        ((∃ slot, c.slots.get? answer.item.tag = some slot ∧
            c.cycle now l1 = (c.settle now answer.item slot.trace).issue now
              { l1 with responses := rest }) ∨
          (c.slots.contains answer.item.tag = false ∧
            c.cycle now l1 = .fail (c.countResponse, { l1 with responses := rest })
              (.unknownTag answer.item.tag))) := by
  rcases hpop : l1.responses.pop? now with _ | ⟨answer, rest⟩
  · exact .inl ⟨rfl, cycle_of_silent hpop⟩
  · refine .inr ⟨answer, rest, rfl, ?_⟩
    rcases hget : c.slots.get? answer.item.tag with _ | slot
    · have hfree : c.slots.contains answer.item.tag = false := by
        rw [SlotTable.contains, hget]
        rfl
      exact .inr ⟨hfree, cycle_of_free hpop hfree⟩
    · exact .inl ⟨slot, rfl, cycle_of_get? hpop hget (h.single _ _ hget)⟩

theorem Regular.cycle (h : Regular size c) (now : Nat) (l1 : Lookup.Link) :
    Regular size (c.cycle now l1).state.1 := by
  obtain ⟨-, heq⟩ | ⟨answer, rest, -, ⟨slot, hget, heq⟩ | ⟨-, heq⟩⟩ := h.cycle_cases now l1
  · rw [heq]
    exact h.issue now l1
  · rw [heq]
    exact (h.settle hget).issue now _
  · rw [heq]
    exact h.congr rfl

theorem Regular.step (h : Regular size c) (event : Event) : Regular size (step c event) := by
  cases event with
  | give trace delay now => exact h.congr rfl
  | collect now =>
    rw [Exposed.step]
    split
    · exact h
    · exact h.congr rfl
  | handOver => exact h.congr rfl
  | cycle now l1 => exact h.cycle now l1
  | reset =>
    have hclear : (Exposed.step c .reset).slots = .ofCapacity size := by
      rw [← h.capacity]
      exact c.slots.clear_eq
    have hcap : size ≤ 2 ^ 32 := h.capacity ▸ h.slots.capacity
    exact regular_of_unused hcap hclear

theorem Regular.after (h : Regular size c) (events : List Event) :
    Regular size (after events c) := by
  induction events generalizing c with
  | nil => exact h
  | cons event events ih => exact ih (h.step event)

/-! ## Traces that wait for a slot -/

/-- The slots are all in use, and this trace is the first to need one. -/
structure Stuck (size : Nat) (packet : Packet Trace) (access : MemAccess) (id : BufferId)
    (c : Checker) : Prop where
  /-- Every slot in use waits for a single answer. -/
  regular : Regular size c
  /-- The slots are all in use. -/
  full : c.slots.used = c.slots.capacity
  /-- The trace is the next one, -/
  next : ∃ rest, c.input.packets = packet :: rest
  /-- and has an access, -/
  first : packet.item.firstAccess? = some access
  /-- whose address belongs to a buffer. -/
  buffer : c.resolve access.addr = some id

variable {packet : Packet Trace} {access : MemAccess} {id : BufferId}

/-- The trace is not taken in without a slot. -/
theorem Stuck.issue (h : Stuck size packet access id c) (now : Nat) (l1 : Lookup.Link) :
    (c.issue now l1).state = (c, l1) := by
  rcases hpop : c.input.pop? now with _ | ⟨visible, rest⟩
  · rw [Checker.issue, hpop]
    rfl
  · obtain ⟨others, hnext⟩ := h.next
    obtain ⟨hpackets, -⟩ := Port.pop?_eq_some_iff.mp hpop
    obtain ⟨rfl, -⟩ := List.cons.inj (hnext.symm.trans hpackets)
    rw [issue_of_resolves hpop h.first h.buffer,
      lookUp_of_error (h.regular.slots.allocate_of_full h.full _).1]
    rfl

/-- Whatever happens, the trace stays where it is until there is a slot. -/
theorem Stuck.step (h : Stuck size packet access id c) {event : Event}
    (hevent : frees c event = false) : Stuck size packet access id (step c event) := by
  have hregular := h.regular.step event
  cases event with
  | give trace delay now =>
    obtain ⟨rest, hnext⟩ := h.next
    refine ⟨hregular, h.full, ⟨rest ++ [⟨trace, now, now + delay⟩], ?_⟩, h.first, h.buffer⟩
    show c.input.packets ++ _ = _
    rw [hnext, List.cons_append]
  | collect now =>
    rw [Exposed.step] at hregular ⊢
    split
    · exact h
    · exact ⟨h.regular.congr rfl, h.full, h.next, h.first, h.buffer⟩
  | handOver => exact ⟨hregular, h.full, h.next, h.first, h.buffer⟩
  | cycle now l1 =>
    rw [Exposed.step]
    rcases hpop : l1.responses.pop? now with _ | ⟨answer, rest⟩
    · rw [cycle_of_silent hpop, h.issue]
      exact h
    · have hfree : c.slots.contains answer.item.tag = false := by
        rwa [frees, hpop] at hevent
      rw [cycle_of_free hpop hfree]
      exact ⟨h.regular.congr rfl, h.full, h.next, h.first, h.buffer⟩
  | reset => cases hevent

theorem Stuck.after (h : Stuck size packet access id c) {events : List Event}
    (hevents : holds c events = true) : Stuck size packet access id (after events c) := by
  induction events generalizing c with
  | nil => exact h
  | cons event events ih =>
    rw [holds, Bool.and_eq_true, Bool.not_eq_true'] at hevents
    exact ih (h.step hevents.1) hevents.2

/-- The slot that the next answer gives back is taken in the same cycle. -/
theorem Stuck.issues (h : Stuck size packet access id c) (hready : packet.ready ≤ now)
    {rsp : Packet Response} {rest : Port Response}
    (hpop : l1.responses.pop? now = some (rsp, rest))
    (hused : c.slots.contains rsp.item.tag = true) :
    Issues now l1 packet (requestFor packet.item access.addr id rsp.item.tag) c := by
  obtain ⟨slot, hget⟩ := Option.isSome_iff_exists.mp hused
  obtain ⟨others, hnext⟩ := h.next
  obtain ⟨slots, halloc⟩ := h.regular.slots.allocate_without h.full hget ⟨packet.item, 1⟩
  have hvisible : (c.settle now rsp.item slot.trace).input.pop? now = some (packet, ⟨others⟩) :=
    Port.pop?_eq_some_iff.mpr ⟨hnext, hready⟩
  have hcap : (c.slots.without rsp.item.tag).capacity ≤ 2 ^ 32 :=
    (h.regular.slots.without hget).1.capacity
  have hcycle : c.cycle now l1 = .ok ((c.settle now rsp.item slot.trace).asked slots ⟨others⟩,
      ({ l1 with responses := rest } : Lookup.Link).request
        (requestFor packet.item access.addr id rsp.item.tag) 1 now) := by
    rw [cycle_of_get? hpop hget (h.regular.single _ _ hget),
      issue_of_resolves hvisible h.first h.buffer]
    exact lookUp_of_ok halloc
  refine ⟨by rw [hcycle]; rfl, ⟨others, hnext, by rw [hcycle]; rfl⟩, ?_, by rw [hcycle]; rfl⟩
  rw [hcycle]
  show slots.get? rsp.item.tag = _
  rw [(SlotTable.get?_of_allocate hcap halloc).2, if_pos rfl]

/-! ## Cycles that fail -/

/-- For want of a slot a cycle fails only if there was nothing else to do. -/
theorem Regular.exhausted (h : Regular size c) {k : Nat}
    (hfail : (c.cycle now l1).error? = some (.exhausted k)) :
    k = size ∧ l1.responses.pop? now = none ∧ ∃ packet access id rest,
      c.input.pop? now = some (packet, rest) ∧ Stuck size packet access id c := by
  obtain ⟨hpop, heq⟩ | ⟨answer, rest, -, ⟨slot, hget, heq⟩ | ⟨-, heq⟩⟩ := h.cycle_cases now l1
  · rw [heq] at hfail
    obtain ⟨packet, rest, access, id, hinput, haccess, hid, halloc⟩ :=
      allocate_of_error?_issue hfail
    obtain ⟨hnext, -⟩ := Port.pop?_eq_some_iff.mp hinput
    obtain ⟨hfull, hused, -⟩ | ⟨tag, slots, hslot, -⟩ := h.slots.allocate_cases ⟨packet.item, 1⟩
    · obtain rfl : c.slots.capacity = k := by
        rw [hfull] at halloc
        simpa using halloc
      exact ⟨h.capacity, hpop, packet, access, id, rest, hinput,
        h, hused, ⟨rest.packets, hnext⟩, haccess, hid⟩
    · rw [hslot] at halloc
      cases halloc
  · -- the answer has given a slot back
    rw [heq] at hfail
    obtain ⟨packet, -, -, -, -, -, -, halloc⟩ := allocate_of_error?_issue hfail
    obtain ⟨hwf, hcap, hused, -⟩ := h.slots.without hget
    have hle := h.slots.used_le
    obtain ⟨tag, slots, hslot⟩ := hwf.exists_allocate (by omega) ⟨packet.item, 1⟩
    change (c.slots.without answer.item.tag).allocate _ = _ at halloc
    rw [hslot] at halloc
    cases halloc
  · rw [heq] at hfail
    cases hfail

/-- A tag is unknown to a cycle if it begins with an answer for a slot that is free. -/
theorem Regular.unknown_iff (h : Regular size c) {tag : Tag} :
    (c.cycle now l1).error? = some (.unknownTag tag) ↔
      ∃ packet rest, l1.responses.pop? now = some (packet, rest) ∧ packet.item.tag = tag ∧
        c.slots.contains tag = false := by
  constructor
  · intro hfail
    obtain ⟨-, heq⟩ | ⟨answer, rest, hpop, ⟨slot, -, heq⟩ | ⟨hfree, heq⟩⟩ := h.cycle_cases now l1
    · rw [heq] at hfail
      exact absurd hfail ((c.issue_moves l1 now).1 tag)
    · rw [heq] at hfail
      exact absurd hfail ((issue_moves _ _ now).1 tag)
    · rw [heq] at hfail
      obtain rfl : answer.item.tag = tag := by simpa using hfail
      exact ⟨answer, rest, hpop, rfl, hfree⟩
  · rintro ⟨packet, rest, hpop, rfl, hfree⟩
    rw [cycle_of_free hpop hfree]
    rfl

theorem Regular.contained (h : Regular size c) (now : Nat) (l1 : Lookup.Link) :
    Contained size now l1 c where
  exhausted k hfail := by
    obtain ⟨hk, hpop, packet, access, id, rest, hinput, hstuck⟩ := h.exhausted hfail
    obtain ⟨-, hready⟩ := Port.pop?_eq_some_iff.mp hinput
    have hfull := (h.slots.allocate_of_full hstuck.full ⟨packet.item, 1⟩).2
    refine ⟨hk, h.capacity, ?_, packet, access, id,
      ⟨hpop, hfull, ⟨rest, hinput⟩, hstuck.first, hstuck.buffer⟩, ?_⟩
    · rw [cycle_of_silent hpop, hstuck.issue]
    · intro events hevents later answers rsp rest hlater hanswer hused
      exact (hstuck.after hevents).issues (hready.trans hlater) hanswer hused
  unknown tag := h.unknown_iff
  consumed packet rest hpop hfree := by
    rw [cycle_of_free hpop hfree]
    rfl

/-- **A cycle that is cut short loses no trace**, whatever is sent to the checker and whatever is
under way on the link below it. -/
theorem failing_cycles_lose_nothing {config : CheckerConfig}
    (hsize : config.queueSize.toNat ≤ 2 ^ 32) (id : UInt64)
    (resolve : Address → Option BufferId) (events : List Event) (now : Nat) (l1 : Lookup.Link) :
    Contained config.queueSize.toNat now l1 (after events (.new id config resolve)) :=
  (regular_of_unused hsize rfl).after events |>.contained now l1

/-- Two slots for three traces.  The third finds none, and an answer for the sixth slot is thrown
away; then the second slot is given back, and the third trace gets it. -/
theorem failing_cycles_lose_nothing_in_two_slots :
    let c := after [.give (.load 1 0x100 4) 1 0, .give (.load 2 0x200 4) 1 0,
      .give (.store 3 0x300 4) 1 0, .cycle 1 {}, .cycle 2 {}]
        (.new 0 { queueSize := 2 } fun addr => if addr < 0x1000 then some 1 else none)
    let link (tag : Tag) : Lookup.Link := { responses := ⟨[⟨⟨tag, .sentinel, 2, 0x200, 1⟩, 2, 3⟩]⟩ }
    (2 : UInt64).toNat ≤ 2 ^ 32 ∧ Contained 2 3 {} c ∧
      (c.cycle 3 {}).error? = some (.exhausted 2) ∧
      (c.cycle 4 (link 5)).error? = some (.unknownTag 5) ∧
      Issues 6 (link 1) ⟨.store 3 0x300 4, 0, 1⟩ ⟨0x300, 1, 1, 3⟩
        (after [.cycle 4 (link 5), .cycle 5 {}] c) := by
  intro c link
  have hsize : ({ queueSize := 2 } : CheckerConfig).queueSize.toNat ≤ 2 ^ 32 := by decide
  have hcontained : Contained 2 3 {} c := failing_cycles_lose_nothing hsize 0 _ _ 3 {}
  have hfail : (c.cycle 3 {}).error? = some (.exhausted 2) := by decide
  obtain ⟨-, -, -, packet, access, id, hstarves, hissues⟩ := hcontained.exhausted 2 hfail
  obtain ⟨rest, hvisible⟩ := hstarves.visible
  -- the trace that starves is the third one
  have hthird : c.input.pop? 3 = some (⟨.store 3 0x300 4, 0, 1⟩, {}) := by decide
  obtain rfl : packet = ⟨.store 3 0x300 4, 0, 1⟩ :=
    congrArg Prod.fst (Option.some.inj (hvisible.symm.trans hthird))
  obtain rfl : access = ⟨0x300, 4⟩ := Option.some.inj (hstarves.first.symm.trans rfl)
  obtain rfl : id = 1 := Option.some.inj (hstarves.buffer.symm.trans rfl)
  have hissued := hissues [.cycle 4 (link 5), .cycle 5 {}] (by decide) 6 (link 1)
    ⟨⟨1, .sentinel, 2, 0x200, 1⟩, 2, 3⟩ {} (by decide) rfl (by decide)
  exact ⟨hsize, hcontained, hfail, by decide, hissued⟩

end Exposed

end BoundsCheck.Checker
