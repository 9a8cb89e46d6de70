import BoundsCheck.Proofs.Balance
import BoundsCheck.Proofs.Links

/-!
# Regular machines

A machine is regular if it has its shape, is balanced, honest and prompt.  Every machine is regular
when it is built, and it stays so whatever is asked of it.  A cycle of a regular machine is never
cut short, and all it does to a core is to work on its cache, to make some moves with its checker
and to exchange traces with it.

* `Machine.Regular` — all that always holds of a machine.
* `Machine.Regular.cycle_eq` — a cycle is not cut short.
* `Machine.Regular.core_cycle` — what a cycle does to a core.
* `Drive.regular` — every machine in use is regular.
-/

set_option autoImplicit false

namespace BoundsCheck

open Lookup

/-- All that always holds of a machine. -/
structure Machine.Regular (c : Config) (resolver : Resolver) (m : Machine) : Prop where
  shaped : m.Shaped c resolver
  balanced : m.Balanced
  honest : m.Honest c
  prompt : m.Prompt

/-- All that a cycle does to a core: its cache works, its checker makes some moves, and then traces
are exchanged with it. -/
inductive Core.Stepped (c : Config) (now : Nat) (core : Core) : Core → Prop
  | of_moves (l1 : RangeCache) (next : Checker × Lookup.Link) (answers : Answers c.answerFor l1.port)
    (sound : core.checker.Sound l1.pending)
    (moves : Relation.ReflTransGen (Checker.Move now) (core.checker, l1.port) next)
    (worked : ∃ lower, l1 = (core.l1.cycle now lower).1) :
    Stepped c now core ((({ core with l1 := l1 } : Core).checked next).exchange now)

namespace Machine

variable {c : Config} {resolver : Resolver} {m : Machine}

/-! ## The phases -/

/-- The machine after its caches have worked. -/
def looked (m : Machine) : Machine := m.cycleTable.cycleL2.cycleL1s

/-- The machine after its switch has worked as well. -/
def switched (m : Machine) : Machine := m.looked.cycleSwitch.state

/-- The machine after its checkers have worked as well. -/
def judged (m : Machine) : Machine :=
  { m.switched with
    cores := m.switched.cores.map fun core =>
      core.checked (core.checker.cycle m.clock core.l1.port).state }

theorem Regular.cycleTable (h : m.Regular c resolver) : m.cycleTable.Regular c resolver :=
  ⟨h.shaped.cycleTable, h.balanced.cycleTable, h.honest.cycleTable h.shaped, h.prompt.cycleTable⟩

theorem Regular.cycleL2 (h : m.Regular c resolver) (hc : c.Accepted) :
    m.cycleL2.Regular c resolver := by
  refine ⟨h.shaped.cycleL2, h.balanced.cycleL2, h.honest.cycleL2 h.balanced.misses,
    h.prompt.cycleL2 ?_⟩
  rw [h.shaped.l2]
  exact hc.l2.forwardingLatency

theorem Regular.cycleL1s (h : m.Regular c resolver) (hc : c.Accepted) :
    m.cycleL1s.Regular c resolver := by
  refine ⟨h.shaped.cycleL1s, h.balanced.cycleL1s h.shaped,
    h.honest.cycleL1s h.shaped fun core hcore => ?_,
    h.prompt.cycleL1s h.shaped hc.l1.forwardingLatency⟩
  obtain ⟨i, hi⟩ := List.getElem?_of_mem hcore
  exact (h.balanced.cores i core hi).misses

theorem Regular.looked (h : m.Regular c resolver) (hc : c.Accepted) :
    m.looked.Regular c resolver :=
  (h.cycleTable.cycleL2 hc).cycleL1s hc

theorem Regular.switched (h : m.Regular c resolver) (hc : c.Accepted) (hfit : c.TagsFit) :
    m.looked.cycleSwitch.error? = none ∧ m.switched.Regular c resolver := by
  have hlooked := h.looked hc
  obtain ⟨herror, hbalanced⟩ := hlooked.balanced.cycleSwitch hlooked.shaped hfit
  refine ⟨herror, hlooked.shaped.cycleSwitch, hbalanced, hlooked.honest.cycleSwitch,
    hlooked.prompt.cycleSwitch ?_⟩
  rw [hlooked.shaped.delay]
  exact hc.delay

/-- The checkers of a regular machine make some moves. -/
theorem Regular.moves (h : m.Regular c resolver) {core : Core} (hcore : core ∈ m.cores)
    (now : Nat) :
    (core.checker.cycle now core.l1.port).error? = none ∧
      Relation.ReflTransGen (Checker.Move now) (core.checker, core.l1.port)
        (core.checker.cycle now core.l1.port).state := by
  obtain ⟨i, hi⟩ := List.getElem?_of_mem hcore
  exact (h.balanced.cores i core hi).cycleChecker now

/-- The checkers of a regular machine are not cut short, and the machine stays regular. -/
theorem Regular.checked (h : m.Regular c resolver) :
    m.cycleCheckers = .ok { m with
      cores := m.cores.map fun core =>
        core.checked (core.checker.cycle m.clock core.l1.port).state } ∧
    m.cycleCheckers.state.Regular c resolver := by
  obtain ⟨heq, hbalanced⟩ := h.balanced.cycleCheckers
  refine ⟨heq, ?_⟩
  rw [heq] at hbalanced ⊢
  exact ⟨h.shaped.withCores fun i core hcore hs =>
      hs.checked (h.moves (List.mem_of_getElem? hcore) m.clock).2,
    hbalanced, h.honest.checked fun core hcore => (h.moves hcore m.clock).2,
    Links.checked h.prompt (fun hmove => hmove.timely_requests)
      fun core hcore => (h.moves hcore m.clock).2⟩

theorem Regular.judged (h : m.Regular c resolver) (hc : c.Accepted) (hfit : c.TagsFit) :
    m.looked.cycleSwitch.andThen cycleCheckers = .ok m.judged ∧
      m.judged.Regular c resolver := by
  obtain ⟨herror, hswitched⟩ := h.switched hc hfit
  obtain ⟨heq, hjudged⟩ := hswitched.checked
  rw [heq] at hjudged
  exact ⟨(Outcome.andThen_of_none herror _).trans heq, hjudged⟩

theorem Regular.exchange (h : m.Regular c resolver) : m.exchange.Regular c resolver :=
  ⟨h.shaped.exchange, h.balanced.exchange, h.honest.exchange, Links.exchange h.prompt⟩

theorem Regular.tick (h : m.Regular c resolver) : m.tick.Regular c resolver := by
  obtain ⟨hs, hb, hh, hp⟩ := h
  exact ⟨⟨hs.length, hs.cores, hs.switch, hs.delay, hs.l2, hs.entries, hs.latency⟩,
    ⟨hb.cores, hb.misses, hb.below, hb.routed⟩,
    ⟨⟨hh.links.table, hh.links.l2, hh.links.inputs, hh.links.cores⟩, hh.l2, hh.cores⟩,
    ⟨hp.table, hp.l2, hp.inputs, hp.cores⟩⟩

/-! ## Cycles -/

/-- **No cycle of a regular machine is cut short.** -/
theorem Regular.cycle_eq (h : m.Regular c resolver) (hc : c.Accepted) (hfit : c.TagsFit) :
    m.cycle = .ok m.judged.exchange.tick := by
  show (m.looked.cycleSwitch.andThen cycleCheckers).andThen _ = _
  rw [(h.judged hc hfit).1]
  rfl

theorem Regular.cycle (h : m.Regular c resolver) (hc : c.Accepted) (hfit : c.TagsFit) :
    m.cycle.state.Regular c resolver := by
  rw [h.cycle_eq hc hfit]
  exact (h.judged hc hfit).2.exchange.tick

theorem Regular.clock_cycle (h : m.Regular c resolver) (hc : c.Accepted) (hfit : c.TagsFit) :
    m.cycle.state.clock = m.clock + 1 := by
  rw [h.cycle_eq hc hfit]
  rfl

/-- A run of a busy machine goes on with a cycle. -/
theorem Regular.runFor_succ (h : m.Regular c resolver) (hc : c.Accepted) (hfit : c.TagsFit)
    (hbusy : m.busy = true) (fuel : Nat) : m.runFor (fuel + 1) = m.cycle.state.runFor fuel := by
  have herror : m.cycle.error? = none := by
    rw [h.cycle_eq hc hfit]
    rfl
  rw [runFor, if_pos hbusy]
  exact Outcome.andThen_of_none herror _

/-- **What a cycle does to a core.** -/
theorem Regular.core_cycle (h : m.Regular c resolver) (hc : c.Accepted) (hfit : c.TagsFit)
    {i : Nat} {core' : Core} (hcore' : m.cycle.state.cores[i]? = some core') :
    ∃ core, m.cores[i]? = some core ∧ core.Stepped c m.clock core' := by
  have hswitched := (h.switched hc hfit).2
  rw [h.cycle_eq hc hfit] at hcore'
  change (((m.switched.cores.map _).map _)[i]?) = some core' at hcore'
  rw [List.getElem?_map, List.getElem?_map, Option.map_map, Option.map_eq_some_iff] at hcore'
  obtain ⟨before, hbefore, rfl⟩ := hcore'
  have hmem := List.mem_of_getElem? hbefore
  have hsound := (hswitched.balanced.cores i before hbefore).sound
  have hanswers := hswitched.honest.links.cores before hmem
  have hmoves := (hswitched.moves hmem m.clock).2
  -- only the cache was touched before the checkers work
  obtain ⟨core, lower, hcore, -, rfl, -⟩ :=
    cores_cycleL1s (h.cycleTable.cycleL2 hc).shaped.links hbefore
  exact ⟨core, hcore, .of_moves _ _ hanswers hsound hmoves ⟨lower, rfl⟩⟩

/-- What steps keep of each core is kept by a cycle. -/
theorem Regular.cycle_cores {Q : Nat → Core → Prop} (h : m.Regular c resolver) (hc : c.Accepted)
    (hfit : c.TagsFit)
    (hstep : ∀ {i now core core'}, Q i core → core.Stepped c now core' → Q i core')
    (hQ : ∀ i core, m.cores[i]? = some core → Q i core) (i : Nat) (core' : Core)
    (hcore' : m.cycle.state.cores[i]? = some core') : Q i core' := by
  obtain ⟨core, hcore, hstepped⟩ := h.core_cycle hc hfit hcore'
  exact hstep (hQ i core hcore) hstepped

/-- And so by a run. -/
theorem Regular.run_cores {Q : Nat → Core → Prop} (h : m.Regular c resolver) (hc : c.Accepted)
    (hfit : c.TagsFit)
    (hstep : ∀ {i now core core'}, Q i core → core.Stepped c now core' → Q i core')
    (hQ : ∀ i core, m.cores[i]? = some core → Q i core) (limit : Nat) :
    ∀ i core, (m.run limit).state.cores[i]? = some core → Q i core := by
  refine (run_keeps (P := fun m => m.Regular c resolver ∧
    ∀ i core, m.cores[i]? = some core → Q i core) (fun m hm => ?_) limit m ⟨h, hQ⟩).2
  exact ⟨hm.1.cycle hc hfit, hm.1.cycle_cores hc hfit hstep hm.2⟩

/-! ## Calls -/

theorem Regular.push (h : m.Regular c resolver) (trace : Trace) :
    (m.push trace).state.Regular c resolver :=
  ⟨h.shaped.push trace, h.balanced.push trace, h.honest.push trace, Links.push h.prompt trace⟩

theorem Regular.dropCompleted (h : m.Regular c resolver) : m.dropCompleted.Regular c resolver :=
  ⟨h.shaped.dropCompleted, h.balanced.dropCompleted, h.honest.withCores fun _ => rfl,
    Links.withCores h.prompt h.prompt.cores⟩

theorem Regular.dropVerdicts (h : m.Regular c resolver) : m.dropVerdicts.Regular c resolver :=
  ⟨h.shaped.dropVerdicts, h.balanced.dropVerdicts, h.honest.withCores fun _ => rfl,
    Links.withCores h.prompt h.prompt.cores⟩

theorem Shaped.regular_reset (hs : m.Shaped c resolver) (hfit : c.TagsFit) :
    m.reset.Regular c resolver :=
  ⟨hs.reset, balanced_reset hs hfit, honest_reset c m, links_reset Port.timely_default m⟩

/-- Whatever is asked of a regular machine, it stays regular. -/
theorem Regular.call (h : m.Regular c resolver) (hc : c.Accepted) (hfit : c.TagsFit)
    (call : Call) : (m.call call).state.Regular c resolver := by
  cases call with
  | push trace => exact h.push trace
  | cycle => exact h.cycle hc hfit
  | run limit => exact run_keeps (fun m hm => hm.cycle hc hfit) limit m h
  | takeCompleted => exact h.dropCompleted
  | takeVerdicts => exact h.dropVerdicts
  | reset => exact h.shaped.regular_reset hfit

/-! ## Drives -/

/-- A machine that has not been used is like one that was reset. -/
theorem reset_fresh (c : Config) (resolver : Resolver) :
    (fresh c resolver).reset = fresh c resolver := by
  have hclear : ∀ capacity,
      (SlotTable.ofCapacity capacity : SlotTable PendingTrace).clear = .ofCapacity capacity := by
    intro capacity
    rw [SlotTable.clear_eq]
    simp only [SlotTable.ofCapacity, SlotTable.capacity, List.length_replicate]
  have hcore : ∀ id, (Core.fresh c resolver id).reset = Core.fresh c resolver id := by
    intro id
    simp only [Core.fresh, Core.reset, Checker.new, Checker.reset, hclear, RangeCache.fresh,
      RangeCache.reset, LineSet.clear, MissTable.clear]
  have hmode : ∀ policy inputs,
      Switch.resetMode (Switch.modeFor policy inputs) = Switch.modeFor policy inputs := by
    intro policy inputs
    rw [Switch.modeFor]
    split
    · rfl
    · rfl
  simp only [fresh, reset, List.map_map, Function.comp_def, hcore, Switch.fresh, Switch.reset,
    hmode, List.map_replicate, List.length_replicate, RangeCache.fresh, RangeCache.reset,
    LineSet.clear, MissTable.clear, RangeTable.reset]

theorem regular_fresh (hc : c.Accepted) (hfit : c.TagsFit) (resolver : Resolver) :
    (fresh c resolver).Regular c resolver := by
  rw [← reset_fresh]
  exact (shaped_fresh hc resolver).regular_reset hfit

end Machine

/-- **Every machine in use is regular.** -/
theorem Drive.regular {c : Config} {m : Machine} {resolver : Resolver}
    (hnew : Machine.new c = .ok m) (hresolver : Resolver.ofConfig c = .ok resolver)
    (hfit : c.TagsFit) (calls : List Call) :
    ((start m).after calls).machine.Regular c resolver := by
  obtain ⟨hc, other, hother, rfl⟩ := Machine.of_new hnew
  cases hresolver.symm.trans hother
  refine after_keeps (P := fun d => d.machine.Regular c resolver) (fun d call h => ?_) calls
    (Machine.regular_fresh hc hfit resolver)
  rw [machine_step]
  exact h.call hc hfit call

end BoundsCheck
