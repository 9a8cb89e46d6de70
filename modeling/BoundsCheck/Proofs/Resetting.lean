import BoundsCheck.Proofs.Regular
import BoundsCheck.Use

/-!
# Resetting

A machine that is reset is the machine that was built.  To see this, nothing has to be known about
the state it was in: a reset leaves of each component what the component never changes, so that a
step of the component, whatever it was given and even if it was cut short, makes no difference to
what a reset leaves.  What is put on the ports from outside does not matter either.

* `RangeTable.reset_cycle`, `RangeCache.reset_cycle`, `Switch.reset_cycle`, `Checker.reset_cycle` — a
  cycle of a component makes no difference to what a reset leaves.
* `Machine.reset_cycle` — neither does a cycle of the machine.
* `Machine.reset_use` — nor anything else that can be done with it.
* `Machine.reset_undoes` — so after a reset it is the machine that was built.
-/

set_option autoImplicit false

namespace BoundsCheck

open Lookup

/-! ## The table -/

theorem RangeTable.reset_cycle (now : Nat) (t : RangeTable) : (t.cycle now).reset = t.reset := by
  show (⟨(t.cycle now).entries, (t.cycle now).latency, {}, {}⟩ : RangeTable) = _
  rw [entries_cycle, latency_cycle]
  rfl

/-! ## Caches -/

namespace LineSet

theorem clear_add (s : LineSet) (entry : RangeEntry) : (s.add entry).clear = s.clear := by
  rw [add]
  split
  · rfl
  · split
    · rfl
    · rfl

theorem clear_touch (s : LineSet) (id : BufferId) : (s.touch id).clear = s.clear := by
  rw [touch]
  split
  · rfl
  · split
    · rfl
    · rfl

end LineSet

namespace RangeCache

variable {now : Nat} {lower : Lookup.Link}

theorem reset_keep (rsp : Response) (c : RangeCache) : (c.keep rsp).reset = c.reset := by
  rw [keep]
  split
  · simp only [reset, LineSet.clear_add]
  · rfl

theorem reset_answerWaiting (now : Nat) (rsp : Response) (c : RangeCache) :
    (c.answerWaiting now rsp).reset = c.reset := by
  rw [answerWaiting]
  split
  · rfl
  · rfl

theorem reset_takeResponse (now : Nat) (lower : Lookup.Link) (c : RangeCache) :
    (c.takeResponse now lower).1.reset = c.reset := by
  rw [takeResponse]
  split
  · rfl
  · exact (reset_answerWaiting now _ _).trans (reset_keep _ c)

theorem reset_access (now : Nat) (req : Request) (lower : Lookup.Link) (c : RangeCache) :
    (c.access now req lower).1.reset = c.reset := by
  rw [access]
  split
  · simp only [hit, reset, LineSet.clear_touch]
  · split
    · rfl
    · rfl

theorem reset_takeRequest (now : Nat) (lower : Lookup.Link) (c : RangeCache) :
    (c.takeRequest now lower).1.reset = c.reset := by
  rcases hpop : c.port.requests.pop? now with _ | ⟨packet, rest⟩
  · rw [takeRequest, hpop]
  · rw [takeRequest_of_pop? hpop]
    exact reset_access now packet.item lower (c.taken now packet rest)

theorem reset_cycle (now : Nat) (lower : Lookup.Link) (c : RangeCache) :
    (c.cycle now lower).1.reset = c.reset := by
  rw [cycle_eq, reset_takeRequest]
  exact reset_takeResponse now lower c.countWaiting

end RangeCache

/-! ## Switches -/

namespace Switch

variable {s s' : Switch}

/-- A reset leaves the number of inputs, the mode and the parameters. -/
theorem reset_eq_of (hinputs : s'.inputs.length = s.inputs.length)
    (hmode : resetMode s'.mode = resetMode s.mode) (hdelay : s'.delay = s.delay)
    (hshift : s'.shift = s.shift) : s'.reset = s.reset := by
  simp only [reset, hinputs, hmode, hdelay, hshift, Switch.mk.injEq, and_true]
  rw [List.map_const', List.map_const', hinputs]

theorem reset_passThrough (lower : Lookup.Link) (s : Switch) :
    (s.passThrough lower).1.reset = s.reset := by
  rw [passThrough]
  split
  · rfl
  · rename_i heq
    exact reset_eq_of (by rw [heq]; rfl) rfl rfl rfl

theorem reset_route (now : Nat) (lower : Lookup.Link) (s : Switch) :
    (s.route now lower).state.1.reset = s.reset := by
  rw [route]
  split
  · rfl
  · simp only [deliver]
    split
    · rfl
    · exact reset_eq_of List.length_set rfl rfl rfl

theorem reset_forward (now input : Nat) (lower : Lookup.Link) (s : Switch) :
    (s.forward now input lower).state.1.reset = s.reset := by
  rw [forward]
  split
  · rfl
  · split
    · rfl
    · simp only
      split
      · rfl
      · exact reset_eq_of List.length_set rfl rfl rfl

theorem reset_advance (a : Arbiter) (winner : Nat) : (a.advance winner).reset = a.reset := by
  rw [Arbiter.advance]
  split
  · rfl
  · rfl

/-- A request is passed on by the arbiter of the switch, or by one that differs in its cursor. -/
theorem reset_grant {arbiter : Arbiter} (hmode : resetMode s.mode = .arbitrated arbiter.reset)
    (now : Nat) (lower : Lookup.Link) : (s.grant now arbiter lower).state.1.reset = s.reset := by
  rw [grant, Arbiter.select]
  rcases arbiter.winner? (s.requestVisible now) with _ | winner
  · rfl
  · refine (reset_forward now winner lower _).trans (reset_eq_of rfl ?_ rfl rfl)
    rw [hmode, ← reset_advance arbiter winner]
    rfl

theorem reset_cycle (now : Nat) (lower : Lookup.Link) (s : Switch) :
    (s.cycle now lower).state.1.reset = s.reset := by
  rw [cycle]
  split
  · exact reset_passThrough lower s
  · rename_i arbiter hmode
    refine Outcome.andThen_keeps (P := fun next : Switch × Lookup.Link => next.1.reset = s.reset)
      (reset_route now lower s) fun next hnext => (reset_grant ?_ now next.2).trans hnext
    show next.1.reset.mode = _
    rw [hnext, reset, hmode]
    rfl

end Switch

/-! ## Checkers -/

namespace SlotTable

variable {α : Type} {t t' : SlotTable α} {tag : Tag} {value value' : α}

theorem clear_of_allocate (h : t.allocate value = .ok (tag, t')) : t'.clear = t.clear := by
  rw [allocate] at h
  split at h
  · cases h
  · cases h
    rw [clear_eq, clear_eq, capacity, List.length_set, capacity]

theorem clear_of_release (h : t.release tag = .ok (value, t')) : t'.clear = t.clear := by
  rw [release] at h
  split at h
  · cases h
  · cases h
    rw [clear_eq, clear_eq, capacity, List.length_set, capacity]

theorem clear_of_modify {f : α → α} (h : t.modify tag f = .ok (value, t')) :
    t'.clear = t.clear := by
  rw [modify] at h
  split at h
  · cases h
  · cases h
    rw [clear_eq, clear_eq, capacity, set, List.length_set, capacity]

end SlotTable

namespace Checker

variable {c : Checker}

/-- A reset leaves the slots and the parameters. -/
theorem reset_withSlots {slots : SlotTable PendingTrace} (h : slots.clear = c.slots.clear) :
    ({ c with slots } : Checker).reset = c.reset := by
  simp only [reset, h]

theorem reset_finish (now : Nat) (tag : Tag) (c : Checker) :
    (c.finish now tag).state.reset = c.reset := by
  rw [finish]
  split
  · rfl
  · rename_i hrelease
    exact reset_withSlots (SlotTable.clear_of_release hrelease)

theorem reset_complete (now : Nat) (rsp : Response) (c : Checker) :
    (c.complete now rsp).state.reset = c.reset := by
  rw [complete]
  simp only
  split
  · rfl
  · rename_i hmodify
    have hslots := reset_withSlots (c := c) (SlotTable.clear_of_modify hmodify)
    split
    · exact (reset_finish now rsp.tag _).trans hslots
    · exact hslots

theorem reset_unresolved (now : Nat) (trace : Trace) (c : Checker) :
    (c.unresolved now trace).reset = c.reset := by
  rw [unresolved]
  split
  · rfl
  · rfl

theorem reset_issue (now : Nat) (l1 : Lookup.Link) (c : Checker) :
    (c.issue now l1).state.1.reset = c.reset := by
  rw [issue]
  split
  · rfl
  · split
    · rfl
    · split
      · exact reset_unresolved now _ _
      · rw [lookUp]
        split
        · rfl
        · rename_i halloc
          exact reset_withSlots (SlotTable.clear_of_allocate halloc)

theorem reset_takeResponse (now : Nat) (l1 : Lookup.Link) (c : Checker) :
    (c.takeResponse now l1).state.1.reset = c.reset := by
  rw [takeResponse]
  split
  · rfl
  · exact reset_complete now _ c

theorem reset_cycle (now : Nat) (l1 : Lookup.Link) (c : Checker) :
    (c.cycle now l1).state.1.reset = c.reset :=
  Outcome.andThen_keeps (P := fun next : Checker × Lookup.Link => next.1.reset = c.reset)
    (reset_takeResponse now l1 c) fun next hnext => (reset_issue now next.2 next.1).trans hnext

end Checker

/-! ## Cores -/

namespace Core

theorem reset_cycleCache (now : Nat) (lower : Lookup.Link) (core : Core) :
    (core.cycleCache now lower).1.reset = core.reset := by
  show ({ checker := core.checker.reset, l1 := (core.l1.cycle now lower).1.reset } : Core) = _
  rw [RangeCache.reset_cycle]
  rfl

theorem reset_cycleChecker (now : Nat) (core : Core) :
    (core.cycleChecker now).state.reset = core.reset := by
  show ({ checker := (core.checker.cycle now core.l1.port).state.1.reset, l1 := core.l1.reset }
    : Core) = _
  rw [Checker.reset_cycle]
  rfl

theorem reset_exchange (now : Nat) (core : Core) : (core.exchange now).reset = core.reset := by
  rw [exchange, feed]
  split
  · rfl
  · rfl

/-- There may be more cores than links or more links than cores. -/
theorem reset_cycleCaches (now : Nat) (cores : List Core) (lowers : List Lookup.Link) :
    (cycleCaches now cores lowers).1.map (·.reset) = cores.map (·.reset) ∧
      (cycleCaches now cores lowers).2.length = lowers.length := by
  induction cores generalizing lowers with
  | nil => exact ⟨rfl, rfl⟩
  | cons core cores ih =>
    cases lowers with
    | nil => exact ⟨rfl, rfl⟩
    | cons lower lowers =>
      obtain ⟨hcores, hlowers⟩ := ih lowers
      simp only [cycleCaches, List.map_cons, List.length_cons, reset_cycleCache, hcores, hlowers,
        and_self]

/-- The checkers behind the first one that is cut short do not work at all. -/
theorem reset_cycleCheckers (now : Nat) (cores : List Core) :
    (cycleCheckers now cores).state.map (·.reset) = cores.map (·.reset) := by
  induction cores with
  | nil => rfl
  | cons core cores ih =>
    rw [cycleCheckers]
    split
    · rw [Outcome.state_fail, List.map_cons, reset_cycleChecker, List.map_cons]
    · rw [Outcome.state_map, List.map_cons, reset_cycleChecker, ih, List.map_cons]

theorem reset_reset (core : Core) : core.reset.reset = core.reset := by
  simp only [reset, Checker.reset, RangeCache.reset, LineSet.clear, MissTable.clear,
    SlotTable.clear_eq, SlotTable.capacity, SlotTable.ofCapacity, List.length_replicate]

end Core

/-! ## Machines -/

/-- What is read off each element does not change with one of them, if it is read off alike. -/
theorem map_modify_of {α β : Type} {f : α → α} {g : α → β} (h : ∀ a, g (f a) = g a) (l : List α)
    (i : Nat) : (l.modify i f).map g = l.map g := by
  refine List.ext_getElem? fun j => ?_
  rw [List.getElem?_map, List.getElem?_map, List.getElem?_modify]
  cases l[j]? with
  | none => rfl
  | some a =>
    split
    · exact congrArg some (h a)
    · rfl

theorem map_set_of {α β : Type} {g : α → β} {l : List α} {i : Nat} {old new : α}
    (hget : l[i]? = some old) (h : g new = g old) : (l.set i new).map g = l.map g := by
  obtain ⟨hlt, rfl⟩ := List.getElem?_eq_some_iff.mp hget
  have hlt' : i < (l.map g).length := hlt.trans_eq (List.length_map g).symm
  have hold : (l.map g)[i] = g l[i] := List.getElem_map g
  rw [List.map_set, h, ← hold, List.set_getElem_self]

namespace Machine

variable {m m' : Machine}

/-- A reset leaves the configuration and what it leaves of the components. -/
theorem reset_eq_of (hconfig : m'.config = m.config)
    (hcores : m'.cores.map (·.reset) = m.cores.map (·.reset))
    (hswitch : m'.switch.reset = m.switch.reset) (hl2 : m'.l2.reset = m.l2.reset)
    (htable : m'.table.reset = m.table.reset) : m'.reset = m.reset := by
  simp only [reset, hconfig, hcores, hswitch, hl2, htable]

/-! ### Phases -/

theorem reset_cycleTable (m : Machine) : m.cycleTable.reset = m.reset :=
  reset_eq_of rfl rfl rfl rfl (RangeTable.reset_cycle m.clock m.table)

theorem reset_cycleL2 (m : Machine) : m.cycleL2.reset = m.reset :=
  reset_eq_of rfl rfl rfl (RangeCache.reset_cycle m.clock m.table.port m.l2) rfl

theorem reset_cycleL1s (m : Machine) : m.cycleL1s.reset = m.reset := by
  obtain ⟨hcores, hinputs⟩ := Core.reset_cycleCaches m.clock m.cores m.switch.inputs
  exact reset_eq_of rfl hcores (Switch.reset_eq_of hinputs rfl rfl rfl) rfl rfl

theorem reset_cycleSwitch (m : Machine) : m.cycleSwitch.state.reset = m.reset :=
  reset_eq_of rfl rfl (Switch.reset_cycle m.clock m.l2.port m.switch) rfl rfl

theorem reset_cycleCheckers (m : Machine) : m.cycleCheckers.state.reset = m.reset :=
  reset_eq_of rfl (Core.reset_cycleCheckers m.clock m.cores) rfl rfl rfl

/-- Changes of cores that make no difference to what a reset leaves of them. -/
theorem reset_withCores {f : Core → Core} (hf : ∀ core, (f core).reset = core.reset) (m : Machine) :
    ({ m with cores := m.cores.map f } : Machine).reset = m.reset := by
  refine reset_eq_of rfl ?_ rfl rfl rfl
  rw [List.map_map]
  exact List.map_congr_left fun core _ => hf core

theorem reset_exchange (m : Machine) : m.exchange.reset = m.reset :=
  reset_withCores (Core.reset_exchange m.clock) m

/-! ### Cycles -/

/-- **A cycle makes no difference to what a reset leaves**, even if it is cut short. -/
theorem reset_cycle (m : Machine) : m.cycle.state.reset = m.reset := by
  refine Outcome.andThen_keeps (P := fun m' : Machine => m'.reset = m.reset)
    (Outcome.andThen_keeps (P := fun m' : Machine => m'.reset = m.reset) ?_ fun m' h => ?_) fun m' h => ?_
  · rw [reset_cycleSwitch, reset_cycleL1s, reset_cycleL2, reset_cycleTable]
  · exact (reset_cycleCheckers m').trans h
  · exact (reset_exchange m').trans h

/-! ### Uses -/

theorem reset_onCore (core : Nat) {f : Core → Core} (hf : ∀ core, (f core).reset = core.reset)
    (m : Machine) : (m.onCore core f).reset = m.reset :=
  reset_eq_of rfl (map_modify_of hf m.cores core) rfl rfl rfl

theorem reset_onLink (place : Place) (f : Lookup.Link → Lookup.Link) (m : Machine) :
    (m.onLink place f).reset = m.reset := by
  cases place with
  | l1 core =>
    refine reset_onCore core (fun _ => ?_) m
    rfl
  | input core =>
    exact reset_eq_of rfl rfl (Switch.reset_eq_of (List.length_modify _ _ _) rfl rfl rfl) rfl rfl
  | l2 => rfl
  | table => rfl

theorem reset_send (parcel : Parcel) (delay now : Nat) (m : Machine) :
    (m.send parcel delay now).reset = m.reset := by
  rw [send]
  split
  · rfl
  · cases parcel with
    | entering core trace =>
      refine reset_onCore core (fun _ => ?_) m
      rfl
    | leaving core trace =>
      refine reset_onCore core (fun _ => ?_) m
      rfl
    | request place req => exact reset_onLink place _ m
    | response place rsp => exact reset_onLink place _ m

theorem reset_push (trace : Trace) (m : Machine) : (m.push trace).state.reset = m.reset := by
  obtain ⟨core, hcore, heq⟩ | ⟨-, heq⟩ := m.push_cases trace
  · rw [heq]
    exact reset_eq_of rfl (map_set_of hcore rfl) rfl rfl rfl
  · rw [heq]
    rfl

theorem reset_reset (m : Machine) : m.reset.reset = m.reset := by
  refine reset_eq_of rfl ?_ (Switch.reset_eq_of (List.length_map _) ?_ rfl rfl) rfl rfl
  · show (m.cores.map (·.reset)).map (·.reset) = _
    rw [List.map_map]
    exact List.map_congr_left fun core _ => core.reset_reset
  · show Switch.resetMode (Switch.resetMode m.switch.mode) = _
    cases m.switch.mode with
    | bypass => rfl
    | arbitrated arbiter => rfl

/-- **Nothing that is done with a machine makes a difference to what a reset leaves.** -/
theorem reset_use (use : Use) (m : Machine) : (m.use use).state.reset = m.reset := by
  cases use with
  | call call =>
    cases call with
    | push trace => exact reset_push trace m
    | cycle => exact reset_cycle m
    | run limit =>
      exact run_keeps (P := fun m' => m'.reset = m.reset)
        (fun m' h => (reset_cycle m').trans h) limit m rfl
    | takeCompleted =>
      refine reset_withCores (fun _ => ?_) m
      rfl
    | takeVerdicts =>
      refine reset_withCores (fun _ => ?_) m
      rfl
    | reset => exact reset_reset m
  | send parcel delay now => exact reset_send parcel delay now m

theorem reset_afterUses (uses : List Use) (m : Machine) : (m.afterUses uses).reset = m.reset := by
  induction uses generalizing m with
  | nil => rfl
  | cons use rest ih => exact (ih (m.use use).state).trans (reset_use use m)

/-- **A reset undoes all that was done with a machine**: whatever was asked of it, also in cycles
that were cut short, and whatever was put on its ports from outside, after a reset it is the machine
that was built, with nothing under way, held or counted.  So all that can be done with it from then
on has the outcomes that it has with a new machine. -/
theorem reset_undoes {c : Config} (hnew : Machine.new c = .ok m) (uses : List Use) :
    (m.afterUses uses).reset = m ∧
      (∃ resolver, Resolver.ofConfig c = .ok resolver ∧
        (m.afterUses uses).reset = fresh c resolver) ∧
      ∀ later, (m.afterUses uses).reset.outcomes later = m.outcomes later := by
  obtain ⟨-, resolver, hresolver, rfl⟩ := Machine.of_new hnew
  have hreset := (reset_afterUses uses (fresh c resolver)).trans (reset_fresh c resolver)
  exact ⟨hreset, ⟨resolver, hresolver, hreset⟩, fun later => by rw [hreset]⟩

/-- A response for a core that does not exist is put on the link above the shared cache, so that a
cycle is cut short. -/
theorem reset_undoes_unknown_route :
    ∃ m, Machine.new { cores := 3 } = .ok m ∧
      (m.afterUses [.call (.push (.load 1 0xFEFFFFC8 4)),
        .send (.response .l2 ⟨3, .sentinel, 0, 0, 0⟩) 1 0, .call .cycle]).cycle.error?
          = some (.switch (.unknownRoute 3 3)) ∧
      (m.afterUses [.call (.push (.load 1 0xFEFFFFC8 4)),
        .send (.response .l2 ⟨3, .sentinel, 0, 0, 0⟩) 1 0, .call .cycle, .call .cycle]).reset = m :=
  ⟨_, rfl, by decide, (reset_undoes (c := { cores := 3 }) rfl
    [.call (.push (.load 1 0xFEFFFFC8 4)),
      .send (.response .l2 ⟨3, .sentinel, 0, 0, 0⟩) 1 0, .call .cycle, .call .cycle]).1⟩

end Machine

end BoundsCheck
