import BoundsCheck.Proofs.History
import BoundsCheck.Proofs.Resolving

/-!
# The verdicts of a machine

The verdicts that a machine reaches, by way of slots, caches and a switch that stamps tags, are
those that can be read off its configuration: the first access of a trace is compared with the entry
of the buffer that its address belongs to.  A core reaches them in the order in which it lets its
traces go.

* `Config.verdictOf` — the verdict on an access, by its trace and its buffer.
* `Config.verdict?` — the verdict on a trace, if its address belongs to a buffer.
* `Checker.Logged` — the verdicts noted are those on the traces let go.
* `Drive.verdicts_eq_reference` — so they are for each core after any calls.
-/

set_option autoImplicit false

namespace BoundsCheck

open Lookup

/-! ## The verdicts to expect -/

/-- The verdict without the cycle it was reached in. -/
def Verdict.timeless (v : Verdict) : Verdict := { v with cycle := 0 }

/-- The verdict on an access that a trace makes to a buffer.  Addresses are numbers here, so that
no sum overflows. -/
def Config.verdictOf (c : Config) (trace : Trace) (addr : Address) (id : BufferId) : Verdict :=
  let entry := c.answerFor id
  let inBounds : Bool := entry.base.toNat ≤ addr.toNat ∧
    addr.toNat < entry.base.toNat + entry.size.toNat
  let permitted := !(entry.readOnly && trace.isStore)
  { cycle := 0
    uuid := trace.uuid
    addr := addr
    bufferId := id
    base := entry.base
    size := entry.size
    isStore := trace.isStore
    inBounds := inBounds
    permitted := permitted
    valid := inBounds && permitted
    tracked := (c.entry? id).isSome
    reason :=
      if !inBounds then some .outOfBounds
      else if !permitted then some .writeToReadOnly
      else none }

/-- The verdict on the first access of a trace, if its address belongs to a buffer. -/
def Config.verdict? (c : Config) (resolve : Address → Option BufferId) (trace : Trace) :
    Option Verdict :=
  trace.firstAccess?.bind fun access =>
    (resolve access.addr).map (c.verdictOf trace access.addr)

/-! ## Judging by an entry -/

/-- An entry is the sentinel exactly if no other is configured for the buffer. -/
theorem Config.isSentinel_answerFor {c : Config} (hc : c.Accepted) (id : BufferId) :
    (c.answerFor id).isSentinel = !(c.entry? id).isSome := by
  rw [Config.answerFor]
  rcases hentry : c.entry? id with _ | entry
  · rfl
  · have hid := hc.ids entry (List.mem_of_find?_eq_some hentry)
    rw [Option.getD_some, RangeEntry.isSentinel, beq_eq_false_iff_ne.mpr hid]
    rfl

/-- The verdict by the configured entry is the one to expect. -/
theorem Config.timeless_judge {c : Config} (hc : c.Accepted) (trace : Trace) (addr : Address)
    (id : BufferId) (now : Nat) :
    (Verdict.judge addr id trace.isStore (c.answerFor id) now trace.uuid).timeless
      = c.verdictOf trace addr id := by
  simp only [Verdict.judge, Verdict.timeless, Config.verdictOf, RangeEntry.contains_eq,
    c.isSentinel_answerFor hc, Bool.not_not, Verdict.objection?]

/-! ## The log of a checker -/

namespace Checker

/-- The verdicts noted are those to expect on the traces let go, in the same order.  Some verdicts
were taken out before, and some traces have gone. -/
def Logged (c : Config) (taken : List Verdict) (gone : List Trace) (checker : Checker) : Prop :=
  (taken ++ checker.verdicts).map Verdict.timeless
    = (gone ++ checker.output.items).filterMap (c.verdict? checker.resolve)

variable {c : Config} {taken : List Verdict} {gone : List Trace} {now : Nat}
  {checker checker' : Checker} {l1 l1' : Lookup.Link} {rest : Multiset Request}

/-- An answer brings the verdict to expect on the trace that waited for it. -/
theorem verdict?_of_pop? (hc : c.Accepted) (hs : checker.Sound (underway l1 + rest))
    (hanswers : Answers c.answerFor l1) {packet : Packet Response} {others : Port Response}
    {pending : PendingTrace} (hpop : l1.responses.pop? now = some (packet, others))
    (hget : checker.slots.get? packet.item.tag = some pending) :
    c.verdict? checker.resolve pending.trace
      = some (verdictOf now packet.item pending.trace).timeless := by
  have hmem : packet.item.question ∈ underway l1 + rest :=
    Multiset.mem_add.mpr (.inl (mem_underway_of_pop?_responses hpop))
  obtain ⟨slot, hslot, -, hq⟩ := hs.exists_slot hmem
  cases hslot.symm.trans hget
  obtain ⟨access, id, haccess, hid, heq⟩ := question?_eq_some_iff.mp hq
  have haddr : packet.item.addr = access.addr := congrArg (·.addr) heq
  have hbuffer : packet.item.bufferId = id := congrArg (·.bufferId) heq
  have huuid : packet.item.uuid = pending.trace.uuid := congrArg (·.uuid) heq
  rw [Config.verdict?, haccess, Option.bind_some, hid, Option.map_some, verdictOf,
    (hanswers.pop? hpop).1, haddr, hbuffer, huuid, c.timeless_judge hc]

theorem Logged.settle (h : checker.Logged c taken gone) (hc : c.Accepted)
    (hs : checker.Sound (underway l1 + rest)) (hanswers : Answers c.answerFor l1)
    {packet : Packet Response} {others : Port Response} {pending : PendingTrace}
    (hpop : l1.responses.pop? now = some (packet, others))
    (hget : checker.slots.get? packet.item.tag = some pending) :
    (checker.settle now packet.item pending.trace).Logged c taken gone := by
  have hverdict := verdict?_of_pop? hc hs hanswers hpop hget
  show (taken ++ (checker.verdicts ++ [verdictOf now packet.item pending.trace])).map _
    = (gone ++ (checker.output.send pending.trace 1 now).items).filterMap _
  rw [Port.items_send, ← List.append_assoc, ← List.append_assoc, List.map_append,
    List.filterMap_append]
  exact congrArg₂ (· ++ ·) h (by
    show _ = [pending.trace].filterMap (c.verdict? checker.resolve)
    rw [List.filterMap_cons_some hverdict]
    rfl)

/-- There is no verdict to expect on a trace that belongs to no buffer, and none is noted. -/
theorem Logged.unresolved (h : checker.Logged c taken gone) {trace : Trace} {access : MemAccess}
    (haccess : trace.firstAccess? = some access) (hnone : checker.resolve access.addr = none)
    (others : Port Trace) :
    ({ checker with input := others }.unresolved now trace).Logged c taken gone := by
  have hverdict : c.verdict? checker.resolve trace = none := by
    rw [Config.verdict?, haccess, Option.bind_some, hnone, Option.map_none]
  rw [Checker.unresolved]
  split
  · exact h
  · show (taken ++ checker.verdicts).map _
      = (gone ++ (checker.output.send trace 1 now).items).filterMap (c.verdict? checker.resolve)
    rw [Port.items_send, ← List.append_assoc, List.filterMap_append,
      List.filterMap_cons_none hverdict, List.filterMap_nil, List.append_nil]
    exact h

/-- **A move of a checker notes the verdict to expect on the trace it lets go**, if any. -/
theorem Logged.move (h : checker.Logged c taken gone) (hc : c.Accepted)
    (hs : checker.Sound (underway l1 + rest)) (hanswers : Answers c.answerFor l1)
    (hmove : Move now (checker, l1) (checker', l1')) : checker'.Logged c taken gone := by
  cases hmove with
  | settle hpop hget _ => exact h.settle hc hs hanswers hpop hget
  | stall _ _ => exact h
  | unresolved _ haccess hnone => exact h.unresolved haccess hnone _
  | ask _ _ _ _ => exact h

/-- So do several moves. -/
theorem Logged.moves (h : checker.Logged c taken gone) (hc : c.Accepted)
    (hs : checker.Sound (underway l1 + rest)) (hanswers : Answers c.answerFor l1)
    {next : Checker × Lookup.Link}
    (hmoves : Relation.ReflTransGen (Move now) (checker, l1) next) :
    next.1.Logged c taken gone ∧ Answers c.answerFor next.2 := by
  induction hmoves with
  | refl => exact ⟨h, hanswers⟩
  | tail hreach hmove ih => exact ⟨ih.1.move hc (hs.moves hreach) ih.2 hmove, hmove.answers ih.2⟩

theorem Logged.take (h : checker.Logged c taken gone) :
    checker.dropVerdicts.Logged c (taken ++ checker.verdicts) gone := by
  show (taken ++ checker.verdicts ++ []).map _ = _
  rw [List.append_nil]
  exact h

end Checker

/-! ## The log of a core -/

namespace Core

variable {c : Config} {taken : List Verdict} {gone : List Trace} {core core' : Core} {now : Nat}

/-- Traces that are exchanged do not concern the verdicts. -/
theorem logged_exchange (core : Core)
    (h : core.checker.Logged c taken (gone ++ core.completed)) (now : Nat) :
    (core.exchange now).checker.Logged c taken (gone ++ (core.exchange now).completed) := by
  have hcollect : (core.collect now).checker.Logged c taken
      (gone ++ (core.collect now).completed) := by
    rw [Checker.Logged, ← core.gone_collect gone now] at h
    exact h
  rw [exchange, feed]
  split
  · exact hcollect
  · exact hcollect

/-- **A step of a core notes the verdicts to expect on the traces that it lets go.** -/
theorem logged_stepped (hc : c.Accepted)
    (h : core.checker.Logged c taken (gone ++ core.completed))
    (hstep : core.Stepped c now core') :
    core'.checker.Logged c taken (gone ++ core'.completed) := by
  obtain ⟨l1, next, hanswers, hsound, hmoves⟩ := hstep
  have hchecked := (h.moves hc hsound hanswers hmoves).1
  exact logged_exchange (({ core with l1 := l1 } : Core).checked next) hchecked now

end Core

/-! ## The verdicts of a machine in use -/

/-- The log of each core is right after any calls. -/
theorem Drive.logged {c : Config} {m : Machine} {resolver : Resolver}
    (hnew : Machine.new c = .ok m) (hresolver : Resolver.ofConfig c = .ok resolver)
    (hfit : c.TagsFit) (calls : List Call) {i : Nat} {core : Core}
    (hcore : ((start m).after calls).machine.cores[i]? = some core) :
    core.checker.Logged c (((start m).after calls).history i).verdicts
      ((((start m).after calls).history i).completed ++ core.completed) := by
  have hc := (Machine.of_new hnew).1
  exact cores_keep
    (Q := fun history core =>
      core.checker.Logged c history.verdicts (history.completed ++ core.completed))
    hnew hresolver hfit (fun _ h => h) (fun h hstep => Core.logged_stepped hc h hstep)
    (fun h => by rw [List.append_nil]; exact h)
    (fun h => h.take)
    (fun _ => rfl) calls i _ hcore

/-- **The verdicts of a core are those to expect**: whatever was asked of a machine, the verdicts of
a core are those on the traces that it has completed or is about to let go, in this order. -/
theorem Drive.verdicts_eq_reference {c : Config} {m : Machine} {resolver : Resolver}
    (hnew : Machine.new c = .ok m) (hresolver : Resolver.ofConfig c = .ok resolver)
    (hfit : c.TagsFit) (calls : List Call) (i : Nat) (hi : i < c.cores.toNat) :
    ∃ core, ((start m).after calls).machine.cores[i]? = some core ∧
      (((start m).after calls).verdicts i).map Verdict.timeless
        = (((start m).after calls).completed i ++ core.checker.output.items).filterMap
          (c.verdict? resolver.resolve) := by
  have hregular := Drive.regular hnew hresolver hfit calls
  rw [← hregular.shaped.length] at hi
  have hcore := List.getElem?_eq_getElem hi
  refine ⟨_, hcore, ?_⟩
  rw [completed_eq hcore, verdicts_eq hregular.shaped hcore,
    ← (hregular.shaped.cores i _ hcore).resolve]
  exact logged hnew hresolver hfit calls hcore

/-- Two cores share a table, and one of them stores to a buffer that is protected from stores. -/
theorem Drive.verdicts_eq_reference_two_cores :
    ∃ m resolver core, Machine.new { cores := 2 } = .ok m ∧
      Resolver.ofConfig { cores := 2 } = .ok resolver ∧
      ((start m).after [.push (.load 1 0xFEFFFFC8 4),
        .push { uuid := 2, coreId := 1, kind := .store, blocks := [[⟨0x8000A820, 4⟩]] },
        .run 100, .takeVerdicts]).machine.cores[1]? = some core ∧
      (((start m).after [.push (.load 1 0xFEFFFFC8 4),
        .push { uuid := 2, coreId := 1, kind := .store, blocks := [[⟨0x8000A820, 4⟩]] },
        .run 100, .takeVerdicts]).verdicts 1).map Verdict.timeless
        = ((((start m).after [.push (.load 1 0xFEFFFFC8 4),
          .push { uuid := 2, coreId := 1, kind := .store, blocks := [[⟨0x8000A820, 4⟩]] },
          .run 100, .takeVerdicts]).completed 1) ++ core.checker.output.items).filterMap
            (Config.verdict? { cores := 2 } resolver.resolve) := by
  obtain ⟨core, hcore, hverdicts⟩ :=
    Drive.verdicts_eq_reference (c := { cores := 2 }) rfl rfl (by decide)
      [.push (.load 1 0xFEFFFFC8 4),
        .push { uuid := 2, coreId := 1, kind := .store, blocks := [[⟨0x8000A820, 4⟩]] },
        .run 100, .takeVerdicts] 1 (by decide)
  exact ⟨_, _, core, rfl, rfl, hcore, hverdicts⟩

end BoundsCheck
