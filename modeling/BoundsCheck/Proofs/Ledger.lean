import BoundsCheck.Proofs.History

/-!
# The ledger of traces

A trace that was given to a machine is in the queue of its core, with the checker of the core, or
among the completed traces; and if traces that belong to no buffer are dropped, it may be gone.  No
trace is ever lost otherwise, none is duplicated, and none is changed.

* `Trace.resolves`, `Trace.strays` — the address of the trace belongs to a buffer, or to none.
* `Checker.Move.ledger` — what a move of a checker does to the ledger.
* `Core.Ledger` — the ledger of a core.
* `Drive.no_trace_lost` — it is right after any calls.
-/

set_option autoImplicit false

namespace BoundsCheck

open Lookup

/-! ## Traces that resolve -/

/-- The first access of the trace has an address that belongs to a buffer. -/
def Trace.resolves (resolve : Address → Option BufferId) (t : Trace) : Bool :=
  t.firstAccess?.any fun access => (resolve access.addr).isSome

/-- The first access of the trace has an address that belongs to no buffer. -/
def Trace.strays (resolve : Address → Option BufferId) (t : Trace) : Bool :=
  t.firstAccess?.any fun access => (resolve access.addr).isNone

theorem Trace.resolves_of_strays {resolve : Address → Option BufferId} {t : Trace}
    (h : t.strays resolve = true) : t.resolves resolve = false := by
  rw [Trace.strays, Option.any_eq_true] at h
  obtain ⟨access, haccess, hnone⟩ := h
  rw [Option.isNone_iff_eq_none] at hnone
  rw [Trace.resolves, haccess, Option.any_some, hnone]
  rfl

/-! ## The traces of a checker -/

namespace Checker

/-- The traces that wait for an answer. -/
def tracked (c : Checker) : Multiset Trace := c.slots.held.map (·.2.trace)

/-- All traces that a checker has. -/
def content (c : Checker) : Multiset Trace := ↑c.input.items + c.tracked + ↑c.output.items

/-- What has become of the traces of a checker, given those it has let go and those that were
dropped. -/
structure Ledger (gone : List Trace) (dropped : Multiset Trace) (c : Checker) : Prop where
  /-- Traces may be forwarded, and then none is dropped. -/
  forward : c.config.unresolved = .forward → dropped = 0
  /-- Or they may be dropped, and then they are counted. -/
  drop : c.config.unresolved = .drop → dropped.card = c.stats.unresolved
  /-- None but traces that belong to no buffer are dropped. -/
  strays : ∀ t ∈ dropped, t.strays c.resolve = true
  /-- If they are, then they are nowhere else. -/
  resolves : c.config.unresolved = .drop →
    ∀ t ∈ c.tracked + ↑c.output.items + ↑gone, t.resolves c.resolve = true

variable {gone : List Trace} {dropped : Multiset Trace} {now : Nat} {c c' : Checker}
  {l1 l1' : Lookup.Link} {rest : Multiset Request}

/-- The counters of verdicts do not count traces that belong to no buffer. -/
theorem unresolved_countVerdict (v : Verdict) (s : Stats.Checker) :
    (countVerdict v s).unresolved = s.unresolved := by
  rw [countVerdict]
  split
  · rfl
  · split
    · rfl
    · split
      · rfl
      · rfl

/-- A trace whose answer has come goes from its slot to the output. -/
theorem tracked_settle (hs : c.Sound (underway l1 + rest)) {rsp : Response}
    {pending : PendingTrace} (hget : c.slots.get? rsp.tag = some pending) :
    c.tracked = {pending.trace} + (c.settle now rsp pending.trace).tracked := by
  obtain ⟨-, -, -, hheld⟩ := hs.slots.without hget
  rw [tracked, hheld, Multiset.map_add, Multiset.map_singleton]
  rfl

/-- A trace that is looked up goes from the input to a slot. -/
theorem tracked_asked (hs : c.Sound (underway l1 + rest)) {trace : Trace} {tag : Tag}
    {slots : SlotTable PendingTrace} (halloc : c.slots.allocate ⟨trace, 1⟩ = .ok (tag, slots))
    (others : Port Trace) : (c.asked slots others).tracked = c.tracked + {trace} := by
  obtain ⟨-, -, -, hheld⟩ := hs.slots.of_allocate halloc
  show slots.held.map _ = _
  rw [hheld, Multiset.map_add, Multiset.map_singleton]
  rfl

theorem Ledger.settle (h : c.Ledger gone dropped) (hs : c.Sound (underway l1 + rest))
    {rsp : Response} {pending : PendingTrace} (hget : c.slots.get? rsp.tag = some pending) :
    (c.settle now rsp pending.trace).content + dropped = c.content + dropped ∧
      (c.settle now rsp pending.trace).Ledger gone dropped := by
  have hout : (c.settle now rsp pending.trace).output.items
      = c.output.items ++ [pending.trace] := Port.items_send _ _ _ _
  have htracked : c.tracked = {pending.trace} + (c.settle now rsp pending.trace).tracked :=
    tracked_settle hs hget
  refine ⟨?_, h.forward, fun hdrop => ?_, h.strays, fun hdrop t ht => h.resolves hdrop t ?_⟩
  · rw [content, content, htracked, hout, ← Multiset.coe_add, Multiset.coe_singleton]
    show (↑c.input.items : Multiset Trace) + _ + _ + _ = _
    abel
  · show dropped.card = (countVerdict _ _).unresolved
    rw [unresolved_countVerdict]
    exact h.drop hdrop
  · rw [hout, ← Multiset.coe_add, Multiset.coe_singleton] at ht
    rw [htracked]
    simp only [Multiset.mem_add] at ht ⊢
    tauto

theorem Ledger.asked (h : c.Ledger gone dropped) (hs : c.Sound (underway l1 + rest))
    {packet : Packet Trace} {others : Port Trace} {access : MemAccess} {id : BufferId} {tag : Tag}
    {slots : SlotTable PendingTrace} (hpop : c.input.pop? now = some (packet, others))
    (haccess : packet.item.firstAccess? = some access) (hid : c.resolve access.addr = some id)
    (halloc : c.slots.allocate ⟨packet.item, 1⟩ = .ok (tag, slots)) :
    (c.asked slots others).content + dropped = c.content + dropped ∧
      (c.asked slots others).Ledger gone dropped := by
  have htracked := tracked_asked hs halloc others
  have hresolves : packet.item.resolves c.resolve = true := by
    rw [Trace.resolves, haccess, Option.any_some, hid, Option.isSome_some]
  refine ⟨?_, h.forward, h.drop, h.strays, fun hdrop t ht => ?_⟩
  · rw [content, content, htracked, Port.items_of_pop? hpop, ← Multiset.cons_coe,
      ← Multiset.singleton_add]
    show (↑others.items : Multiset Trace) + _ + ↑c.output.items + _ = _
    abel
  · rw [htracked] at ht
    change t ∈ c.tracked + {packet.item} + ↑c.output.items + ↑gone at ht
    simp only [Multiset.mem_add, Multiset.mem_singleton] at ht
    rcases ht with ((ht | rfl) | ht) | ht
    · exact h.resolves hdrop t (by simp only [Multiset.mem_add]; tauto)
    · exact hresolves
    · exact h.resolves hdrop t (by simp only [Multiset.mem_add]; tauto)
    · exact h.resolves hdrop t (by simp only [Multiset.mem_add]; tauto)

theorem Ledger.unresolved (h : c.Ledger gone dropped) {packet : Packet Trace} {others : Port Trace}
    {access : MemAccess} (hpop : c.input.pop? now = some (packet, others))
    (haccess : packet.item.firstAccess? = some access) (hnone : c.resolve access.addr = none) :
    ∃ dropped',
      ({ c with input := others }.unresolved now packet.item).content + dropped'
        = c.content + dropped ∧
      ({ c with input := others }.unresolved now packet.item).Ledger gone dropped' := by
  have hstrays : packet.item.strays c.resolve = true := by
    rw [Trace.strays, haccess, Option.any_some, hnone, Option.isNone_none]
  have hcontent : c.content = {packet.item} + ↑others.items + c.tracked + ↑c.output.items := by
    rw [content, Port.items_of_pop? hpop, ← Multiset.cons_coe, ← Multiset.singleton_add]
  rw [Checker.unresolved]
  split
  · rename_i hpolicy
    change c.config.unresolved = .drop at hpolicy
    refine ⟨{packet.item} + dropped, ?_, fun hforward => ?_, fun hdrop => ?_, fun t ht => ?_,
      h.resolves⟩
    · rw [hcontent]
      show (↑others.items : Multiset Trace) + c.tracked + ↑c.output.items + _ = _
      abel
    · cases hpolicy.symm.trans hforward
    · rw [Multiset.card_add, Multiset.card_singleton, h.drop hdrop, Nat.add_comm]
    · rcases Multiset.mem_add.mp ht with ht | ht
      · rw [Multiset.mem_singleton.mp ht]
        exact hstrays
      · exact h.strays t ht
  · rename_i hpolicy
    change c.config.unresolved = .forward at hpolicy
    refine ⟨dropped, ?_, h.forward, fun hdrop => ?_, h.strays, fun hdrop => ?_⟩
    · rw [hcontent]
      show (↑others.items : Multiset Trace) + c.tracked
        + ↑(c.output.send packet.item 1 now).items + _ = _
      rw [Port.items_send, ← Multiset.coe_add, Multiset.coe_singleton]
      abel
    · cases hpolicy.symm.trans hdrop
    · cases hpolicy.symm.trans hdrop

/-- **A move of a checker loses no trace**, but it may drop one that belongs to no buffer. -/
theorem Move.ledger (hmove : Move now (c, l1) (c', l1')) (hs : c.Sound (underway l1 + rest))
    (h : c.Ledger gone dropped) :
    ∃ dropped', c'.content + dropped' = c.content + dropped ∧ c'.Ledger gone dropped' := by
  cases hmove with
  | settle _ hget _ => exact ⟨dropped, h.settle hs hget⟩
  | stall _ _ => exact ⟨dropped, rfl, h.forward, h.drop, h.strays, h.resolves⟩
  | unresolved hpop haccess hnone => exact h.unresolved hpop haccess hnone
  | ask hpop haccess hid halloc => exact ⟨dropped, h.asked hs hpop haccess hid halloc⟩

/-- Nor do several moves. -/
theorem Ledger.moves (h : c.Ledger gone dropped) (hs : c.Sound (underway l1 + rest))
    {next : Checker × Lookup.Link} (hmoves : Relation.ReflTransGen (Move now) (c, l1) next) :
    ∃ dropped', next.1.content + dropped' = c.content + dropped ∧
      next.1.Ledger gone dropped' := by
  induction hmoves with
  | refl => exact ⟨dropped, rfl, h⟩
  | tail hreach hmove ih =>
    obtain ⟨dropped', hcontent, hledger⟩ := ih
    obtain ⟨dropped'', hcontent', hledger'⟩ := hmove.ledger (hs.moves hreach) hledger
    exact ⟨dropped'', hcontent'.trans hcontent, hledger'⟩

end Checker

/-! ## The traces of a core -/

namespace Core

/-- What has become of the traces that were pushed for a core, given those that were taken out and
those that were dropped. -/
structure Ledger (pushed taken : List Trace) (dropped : Multiset Trace) (core : Core) : Prop where
  /-- Each trace is in one place. -/
  total : (↑pushed : Multiset Trace)
    = ↑core.queue + core.checker.content + ↑(taken ++ core.completed) + dropped
  /-- The checker has let the completed ones go. -/
  checker : core.checker.Ledger (taken ++ core.completed) dropped

variable {pushed taken : List Trace} {dropped : Multiset Trace} {core core' : Core} {now : Nat}

theorem Ledger.collect (h : core.Ledger pushed taken dropped) (now : Nat) :
    (core.collect now).Ledger pushed taken dropped := by
  have hitems : core.checker.output.items
      = core.leaving now ++ (core.checker.output.drain now).2.items :=
    Port.items_drain now core.checker.output
  refine ⟨?_, h.checker.forward, h.checker.drop, h.checker.strays, fun hdrop t ht => ?_⟩
  · rw [h.total, Checker.content, hitems]
    simp only [Core.collect, Checker.content, Checker.tracked, ← Multiset.coe_add]
    abel
  · refine h.checker.resolves hdrop t ?_
    change t ∈ core.checker.tracked + ↑(core.checker.output.drain now).2.items
      + ↑(taken ++ (core.completed ++ core.leaving now)) at ht
    rw [hitems]
    simp only [← Multiset.coe_add, Multiset.mem_add] at ht ⊢
    tauto

theorem Ledger.feed (h : core.Ledger pushed taken dropped) (now : Nat) :
    (core.feed now).Ledger pushed taken dropped := by
  rcases core.feed_cases now with ⟨-, heq⟩ | ⟨trace, rest, -, hqueue, heq⟩
  · rw [heq]
    exact h
  · have hwaiting : (↑core.queue : Multiset Trace) = {trace} + ↑rest := by
      rw [hqueue, ← Multiset.cons_coe, Multiset.singleton_add]
    have hinput : (↑(core.checker.input.send trace 1 now).items : Multiset Trace)
        = ↑core.checker.input.items + {trace} := by
      rw [Port.items_send, ← Multiset.coe_add, Multiset.coe_singleton]
    rw [heq]
    refine ⟨?_, h.checker.forward, h.checker.drop, h.checker.strays, h.checker.resolves⟩
    show _ = ↑rest + (↑(core.checker.input.send trace 1 now).items
      + core.checker.tracked + ↑core.checker.output.items) + ↑(taken ++ core.completed) + dropped
    rw [h.total, Checker.content, hwaiting, hinput]
    abel

/-- **A step of a core loses no trace**, but it may drop some that belong to no buffer. -/
theorem Ledger.stepped {c : Config} (h : core.Ledger pushed taken dropped)
    (hstep : core.Stepped c now core') : ∃ dropped', core'.Ledger pushed taken dropped' := by
  obtain ⟨l1, next, -, hsound, hmoves⟩ := hstep
  obtain ⟨dropped', hcontent, hledger⟩ := h.checker.moves hsound hmoves
  refine ⟨dropped', Ledger.feed (Ledger.collect ⟨?_, hledger⟩ now) now⟩
  calc (↑pushed : Multiset Trace)
    _ = ↑core.queue + ↑(taken ++ core.completed) + (core.checker.content + dropped) := by
      rw [h.total]
      abel
    _ = ↑core.queue + ↑(taken ++ core.completed) + (next.1.content + dropped') := by
      rw [hcontent]
    _ = ↑core.queue + next.1.content + ↑(taken ++ core.completed) + dropped' := by abel

theorem Ledger.give (h : core.Ledger pushed taken dropped) (trace : Trace) :
    (core.give trace).Ledger (pushed ++ [trace]) taken dropped := by
  have hone : ∀ traces : List Trace,
      (↑(traces ++ [trace]) : Multiset Trace) = ↑traces + {trace} := by
    intro traces
    rw [← Multiset.coe_add, Multiset.coe_singleton]
  refine ⟨?_, h.checker⟩
  show _ = (↑(core.queue ++ [trace]) : Multiset Trace) + core.checker.content
    + ↑(taken ++ core.completed) + dropped
  rw [hone, hone, h.total]
  abel

theorem Ledger.take (h : core.Ledger pushed taken dropped) :
    ({ core with completed := [] } : Core).Ledger pushed (taken ++ core.completed) dropped := by
  have htaken : taken ++ core.completed ++ [] = taken ++ core.completed := List.append_nil _
  refine ⟨?_, ?_⟩
  · rw [htaken]
    exact h.total
  · rw [htaken]
    exact h.checker

theorem ledger_reset (core : Core) : core.reset.Ledger [] [] 0 := by
  have htracked : core.reset.checker.tracked = 0 := by
    show core.checker.slots.clear.held.map _ = 0
    rw [SlotTable.clear_eq, SlotTable.held_ofCapacity]
    rfl
  refine ⟨?_, fun _ => rfl, fun _ => rfl, fun t ht => absurd ht (Multiset.notMem_zero t),
    fun _ t ht => ?_⟩
  · rw [Checker.content, htracked]
    rfl
  · rw [htracked] at ht
    exact absurd ht (Multiset.notMem_zero t)

end Core

/-! ## The traces of a machine in use -/

/-- What has become of the traces that a machine in use has accepted for a core. -/
structure Drive.Ledger (c : Config) (resolver : Resolver) (d : Drive) (i : Nat) (core : Core)
    (dropped : Multiset Trace) : Prop where
  /-- Each of them is in exactly one place. -/
  total : (↑(d.pushed i) : Multiset Trace)
    = ↑core.queue + ↑core.checker.input.items + core.checker.tracked
      + ↑core.checker.output.items + ↑(d.completed i) + dropped
  /-- Traces may be forwarded, and then none is dropped. -/
  forward : c.checker.unresolved = .forward → dropped = 0
  /-- Or they may be dropped, and then they are counted. -/
  drop : c.checker.unresolved = .drop → dropped.card = core.checker.stats.unresolved
  /-- None but traces that belong to no buffer are dropped. -/
  strays : ∀ t ∈ dropped, t.strays resolver.resolve = true
  /-- If they are, then only traces that belong to a buffer get beyond the input. -/
  resolves : c.checker.unresolved = .drop →
    ∀ t ∈ core.checker.tracked + ↑core.checker.output.items + ↑(d.completed i),
      t.resolves resolver.resolve = true

namespace Drive

variable {c : Config} {resolver : Resolver} {d : Drive} {i : Nat} {core : Core}
  {dropped : Multiset Trace}

/-- The ledger of a core is about the traces it has completed, taken or not. -/
theorem ledger_of_core (hs : d.machine.Shaped c resolver)
    (hcore : d.machine.cores[i]? = some core)
    (h : core.Ledger (d.history i).pushed (d.history i).completed dropped) :
    d.Ledger c resolver i core dropped := by
  obtain ⟨htotal, hforward, hdrop, hstrays, hresolves⟩ := h
  have hshape := hs.cores i core hcore
  rw [hshape.config] at hforward hdrop hresolves
  rw [hshape.resolve] at hstrays hresolves
  rw [← completed_eq hcore] at htotal hresolves
  refine ⟨?_, hforward, hdrop, hstrays, hresolves⟩
  rw [Checker.content, ← add_assoc, ← add_assoc] at htotal
  exact htotal

/-- All traces are with a core that has nothing left to do, or with the completed or dropped
ones. -/
theorem Ledger.of_not_busy (h : d.Ledger c resolver i core dropped)
    (hslots : core.checker.slots.WellFormed) (hbusy : core.busy = false) :
    (↑(d.pushed i) : Multiset Trace) = ↑(d.completed i) + dropped := by
  simp only [Core.busy, Checker.busy, Bool.or_eq_false_iff, Bool.not_eq_false',
    Port.hasPending_eq_false_iff, List.isEmpty_iff] at hbusy
  obtain ⟨⟨⟨hqueue, hinput, hempty⟩, houtput⟩, -⟩ := hbusy
  have htracked : core.checker.tracked = 0 := by
    rw [Checker.tracked, hslots.held_of_isEmpty hempty, Multiset.map_zero]
  rw [h.total, hqueue, hinput, htracked, houtput]
  simp only [Multiset.coe_nil, zero_add]

/-- A core with nothing left to do has completed all traces, or all that belong to a buffer. -/
theorem Ledger.perm_of_not_busy (h : d.Ledger c resolver i core dropped)
    (hslots : core.checker.slots.WellFormed) (hbusy : core.busy = false) :
    (c.checker.unresolved = .forward → (d.completed i).Perm (d.pushed i)) ∧
      (c.checker.unresolved = .drop →
        (d.completed i).Perm ((d.pushed i).filter (·.resolves resolver.resolve))) := by
  have htotal := h.of_not_busy hslots hbusy
  refine ⟨fun hforward => ?_, fun hdrop => ?_⟩
  · rw [h.forward hforward, add_zero, Multiset.coe_eq_coe] at htotal
    exact htotal.symm
  · have hcompleted : (↑(d.completed i) : Multiset Trace).filter
        (·.resolves resolver.resolve = true) = ↑(d.completed i) :=
      Multiset.filter_eq_self.mpr fun t ht =>
        h.resolves hdrop t (Multiset.mem_add.mpr (.inr ht))
    have hdropped : dropped.filter (·.resolves resolver.resolve = true) = 0 := by
      rw [Multiset.filter_eq_nil]
      intro t ht
      rw [Trace.resolves_of_strays (h.strays t ht)]
      exact Bool.false_ne_true
    have hfilter := congrArg (Multiset.filter (·.resolves resolver.resolve = true)) htotal
    rw [Multiset.filter_add, hcompleted, hdropped, add_zero, Multiset.filter_coe,
      Multiset.coe_eq_coe] at hfilter
    simp only [Bool.decide_eq_true] at hfilter
    exact hfilter.symm

/-- **No trace is lost, duplicated or changed**, whatever was asked of a machine; and once nothing
is left to do, each core has completed all its traces, but those that it was to drop. -/
theorem no_trace_lost {m : Machine} (hnew : Machine.new c = .ok m)
    (hresolver : Resolver.ofConfig c = .ok resolver) (hfit : c.TagsFit) (calls : List Call)
    (i : Nat) (hi : i < c.cores.toNat) :
    (∃ core, ((start m).after calls).machine.cores[i]? = some core ∧
      ∃ dropped, ((start m).after calls).Ledger c resolver i core dropped) ∧
    (((start m).after calls).machine.busy = false →
      (c.checker.unresolved = .forward →
        (((start m).after calls).completed i).Perm (((start m).after calls).pushed i)) ∧
      (c.checker.unresolved = .drop →
        (((start m).after calls).completed i).Perm
          ((((start m).after calls).pushed i).filter (·.resolves resolver.resolve)))) := by
  have hregular := Drive.regular hnew hresolver hfit calls
  rw [← hregular.shaped.length] at hi
  have hcore := List.getElem?_eq_getElem hi
  obtain ⟨dropped, hcoreLedger⟩ := cores_keep
    (Q := fun history core => ∃ dropped, core.Ledger history.pushed history.completed dropped)
    hnew hresolver hfit (fun trace ⟨dropped, h⟩ => ⟨dropped, h.give trace⟩)
    (fun ⟨_, h⟩ hstep => h.stepped hstep) (fun ⟨dropped, h⟩ => ⟨dropped, h.take⟩)
    (fun ⟨dropped, h⟩ => ⟨dropped, h.total, h.checker.forward, h.checker.drop, h.checker.strays,
      h.checker.resolves⟩)
    (fun core => ⟨0, core.ledger_reset⟩) calls i _ hcore
  have hledger := ledger_of_core hregular.shaped hcore hcoreLedger
  refine ⟨⟨_, hcore, dropped, hledger⟩, fun hbusy => ?_⟩
  have hslots := (hregular.balanced.cores i _ hcore).sound.slots
  refine hledger.perm_of_not_busy hslots ?_
  simp only [Machine.busy, Bool.or_eq_false_iff, List.any_eq_false] at hbusy
  simpa using hbusy.1.1.1 _ (List.mem_of_getElem? hcore)

/-- Of two traces one belongs to no buffer.  It is dropped on the way, and the other one is
completed and taken. -/
theorem no_trace_lost_of_two :
    ∃ m resolver, Machine.new {} = .ok m ∧ Resolver.ofConfig {} = .ok resolver ∧
      ((start m).after [.push (.load 1 0xFEFFFFC8 4), .push (.load 2 0x10 4), .run 100,
        .takeCompleted]).machine.busy = false ∧
      (((start m).after [.push (.load 1 0xFEFFFFC8 4), .push (.load 2 0x10 4), .run 100,
        .takeCompleted]).completed 0).Perm
          ((((start m).after [.push (.load 1 0xFEFFFFC8 4), .push (.load 2 0x10 4), .run 100,
            .takeCompleted]).pushed 0).filter (·.resolves resolver.resolve)) :=
  ⟨_, _, rfl, rfl, by decide +kernel,
    ((no_trace_lost (c := {}) rfl rfl (by decide) _ 0 (by decide)).2 (by decide +kernel)).2 rfl⟩

end Drive

end BoundsCheck
