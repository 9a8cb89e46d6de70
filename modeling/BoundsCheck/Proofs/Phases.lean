import BoundsCheck.Drive
import BoundsCheck.Proofs.Build
import BoundsCheck.Proofs.Checking
import BoundsCheck.Proofs.Servers
import BoundsCheck.Proofs.Switching

/-!
# The phases of a cycle

A cycle is a sequence of phases, a run is a sequence of cycles, and a drive is a sequence of calls.
What every phase keeps is kept by a whole cycle, and so on up to a whole drive.

* `Core.cycleCaches_eq`, `Core.cycleCheckers_eq` — in a phase every core works for itself.
* `Core.feed_cases`, `Machine.push_cases` — how a core comes to its traces.
* `Machine.run_keeps`, `Drive.after_keeps` — what is kept step by step.
* `Machine.Shaped` — what never changes about a machine.
-/

set_option autoImplicit false

namespace BoundsCheck

/-! ## All cores at once -/

namespace Core

/-- The caches of the cores work side by side, each above its own link. -/
theorem cycleCaches_eq (now : Nat) {cores : List Core} {lowers : List Lookup.Link}
    (h : cores.length = lowers.length) :
    cycleCaches now cores lowers =
      (cores.zipWith (fun core lower => (core.cycleCache now lower).1) lowers,
        cores.zipWith (fun core lower => (core.cycleCache now lower).2) lowers) := by
  induction cores generalizing lowers with
  | nil =>
    rw [List.length_nil, eq_comm, List.length_eq_zero_iff] at h
    rw [h]
    rfl
  | cons core cores ih =>
    cases lowers with
    | nil => cases h
    | cons lower lowers =>
      rw [cycleCaches, ih (Nat.succ.inj h)]
      rfl

/-- As long as none of them is cut short, the checkers of the cores work side by side. -/
theorem cycleCheckers_eq {now : Nat} {cores : List Core}
    (h : ∀ core ∈ cores, (core.cycleChecker now).error? = none) :
    cycleCheckers now cores = .ok (cores.map fun core => (core.cycleChecker now).state) := by
  induction cores with
  | nil => rfl
  | cons core cores ih =>
    simp only [cycleCheckers, h core List.mem_cons_self,
      ih fun other hmem => h other (List.mem_cons_of_mem _ hmem)]
    rfl

/-- While a core takes traces from its checker, those that have gone or are about to go stay the
same. -/
theorem gone_collect (taken : List Trace) (now : Nat) (core : Core) :
    taken ++ (core.collect now).completed ++ (core.collect now).checker.output.items
      = taken ++ core.completed ++ core.checker.output.items := by
  rw [core.checker.output.items_drain now]
  simp only [collect, leaving, List.append_assoc]

/-- Either no trace enters the checker, or there is room for one, and the first one of the queue
does. -/
theorem feed_cases (now : Nat) (core : Core) :
    (core.entering? = none ∧ core.feed now = core) ∨
      ∃ trace rest, core.checker.hasRoom = true ∧ core.queue = trace :: rest ∧
        core.feed now = { core with
          checker.input := core.checker.input.send trace 1 now
          queue := rest } := by
  rcases hentering : core.entering? with _ | trace
  · exact .inl ⟨rfl, by rw [feed, hentering]⟩
  · rw [entering?, Option.ite_none_right_eq_some, List.head?_eq_some_iff] at hentering
    obtain ⟨hroom, rest, hqueue⟩ := hentering
    refine .inr ⟨trace, rest, hroom, hqueue, ?_⟩
    rw [feed, entering?, if_pos hroom, hqueue]
    rfl

/-- The core with one more trace in its queue. -/
def give (trace : Trace) (core : Core) : Core := { core with queue := core.queue ++ [trace] }

end Core

/-! ## What is kept step by step -/

namespace Machine

variable {P : Machine → Prop}

theorem runFor_keeps (hcycle : ∀ m, P m → P m.cycle.state) (fuel : Nat) (m : Machine) (h : P m) :
    P (m.runFor fuel).state := by
  induction fuel generalizing m with
  | zero =>
    rw [runFor]
    split
    · exact h
    · exact h
  | succ fuel ih =>
    rw [runFor]
    split
    · exact Outcome.andThen_keeps (hcycle m h) ih
    · exact h

/-- What a cycle keeps is kept by a run. -/
theorem run_keeps (hcycle : ∀ m, P m → P m.cycle.state) (limit : Nat) (m : Machine) (h : P m) :
    P (m.run limit).state :=
  runFor_keeps hcycle _ m h

/-- A trace is either put into the queue of its core or refused, and then nothing changes. -/
theorem push_cases (trace : Trace) (m : Machine) :
    (∃ core, m.cores[trace.coreId.toNat]? = some core ∧
      m.push trace = .ok { m with cores := m.cores.set trace.coreId.toNat (core.give trace) }) ∨
    (m.cores.length ≤ trace.coreId.toNat ∧
      m.push trace = .fail m (.invalidCore trace.coreId.toNat m.cores.length)) := by
  rcases hcore : m.cores[trace.coreId.toNat]? with _ | core
  · exact .inr ⟨List.getElem?_eq_none_iff.mp hcore, by rw [push, hcore]⟩
  · exact .inl ⟨core, rfl, by rw [push, hcore]; rfl⟩

end Machine

/-- What all calls keep is kept by a drive. -/
theorem Drive.after_keeps {P : Drive → Prop} (hstep : ∀ d call, P d → P (d.step call))
    (calls : List Call) {d : Drive} (h : P d) : P (d.after calls) := by
  induction calls generalizing d with
  | nil => exact h
  | cons call calls ih => exact ih (hstep d call h)

theorem Drive.after_concat (calls : List Call) (call : Call) (d : Drive) :
    d.after (calls ++ [call]) = (d.after calls).step call := by
  simp [after]

@[simp] theorem Drive.machine_step (d : Drive) (call : Call) :
    (d.step call).machine = (d.machine.call call).state := by
  cases call <;> rfl

/-! ## The shape of a machine -/

/-- What never changes about a core. -/
structure Core.Shaped (c : Config) (resolver : Resolver) (id : Nat) (core : Core) : Prop where
  /-- The cores are numbered. -/
  id : core.checker.id = UInt64.ofNat id
  /-- All checkers are configured alike. -/
  config : core.checker.config = c.checker
  /-- All of them have the same resolver. -/
  resolve : core.checker.resolve = resolver.resolve
  /-- All of them have the same number of slots. -/
  capacity : core.checker.capacity = c.checker.queueSize.toNat
  /-- All caches of cores are configured alike. -/
  l1 : core.l1.config = c.l1

/-- What never changes about a machine. -/
structure Machine.Shaped (c : Config) (resolver : Resolver) (m : Machine) : Prop where
  /-- There is the configured number of cores. -/
  length : m.cores.length = c.cores.toNat
  /-- All of them have their shape. -/
  cores : ∀ i (core : Core), m.cores[i]? = some core → core.Shaped c resolver i
  /-- The switch has an input for each of them. -/
  switch : m.switch.Shape c.cores.toNat
  /-- The switch is configured. -/
  delay : m.switch.delay = c.switch.delay
  /-- The shared cache is configured. -/
  l2 : m.l2.config = c.l2
  /-- The table holds the configured entries. -/
  entries : m.table.entries = c.table.entries
  /-- The table is configured. -/
  latency : m.table.latency = c.table.latency

/-- No move of a checker changes what never changes. -/
theorem Checker.Move.fixed {now : Nat} {c c' : Checker} {l1 l1' : Lookup.Link}
    (h : Move now (c, l1) (c', l1')) :
    c'.id = c.id ∧ c'.config = c.config ∧ c'.resolve = c.resolve ∧ c'.capacity = c.capacity := by
  cases h with
  | settle => exact ⟨rfl, rfl, rfl, List.length_set⟩
  | stall => exact ⟨rfl, rfl, rfl, rfl⟩
  | unresolved =>
    simp only [Checker.unresolved]
    split
    · exact ⟨rfl, rfl, rfl, rfl⟩
    · exact ⟨rfl, rfl, rfl, rfl⟩
  | ask _ _ _ halloc =>
    rw [SlotTable.allocate] at halloc
    split at halloc
    · cases halloc
    · cases halloc
      exact ⟨rfl, rfl, rfl, List.length_set⟩

namespace Core

variable {c : Config} {resolver : Resolver} {id : Nat} {core : Core}

/-- The core after its checker has worked above its cache. -/
def checked (next : Checker × Lookup.Link) (core : Core) : Core :=
  { core with checker := next.1, l1.port := next.2 }

theorem Shaped.checked (h : core.Shaped c resolver id) {now : Nat} {next : Checker × Lookup.Link}
    (hmoves : Relation.ReflTransGen (Checker.Move now) (core.checker, core.l1.port) next) :
    (core.checked next).Shaped c resolver id := by
  induction hmoves with
  | refl => exact h
  | tail _ hmove ih =>
    obtain ⟨hid, hconfig, hresolve, hcapacity⟩ := hmove.fixed
    exact ⟨hid.trans ih.id, hconfig.trans ih.config, hresolve.trans ih.resolve,
      hcapacity.trans ih.capacity, ih.l1⟩

theorem Shaped.cycleCache (h : core.Shaped c resolver id) (now : Nat) (lower : Lookup.Link) :
    (core.cycleCache now lower).1.Shaped c resolver id :=
  ⟨h.id, h.config, h.resolve, h.capacity, (RangeCache.config_cycle now lower core.l1).trans h.l1⟩

theorem Shaped.exchange (h : core.Shaped c resolver id) (now : Nat) :
    (core.exchange now).Shaped c resolver id := by
  rw [Core.exchange, feed]
  split
  · exact ⟨h.id, h.config, h.resolve, h.capacity, h.l1⟩
  · exact ⟨h.id, h.config, h.resolve, h.capacity, h.l1⟩

theorem Shaped.reset (h : core.Shaped c resolver id) : core.reset.Shaped c resolver id :=
  ⟨h.id, h.config, h.resolve, (List.length_map _).trans h.capacity, h.l1⟩

end Core

namespace Machine

variable {c : Config} {resolver : Resolver} {m : Machine}

/-! ### Cores after a phase -/

theorem cores_cycleL1s (h : m.cores.length = m.switch.inputs.length) {i : Nat} {core' : Core}
    (hcore' : m.cycleL1s.cores[i]? = some core') :
    ∃ core lower, m.cores[i]? = some core ∧ m.switch.inputs[i]? = some lower ∧
      core' = (core.cycleCache m.clock lower).1 ∧
      m.cycleL1s.switch.inputs[i]? = some (core.cycleCache m.clock lower).2 := by
  rw [cycleL1s, Core.cycleCaches_eq m.clock h] at hcore' ⊢
  obtain ⟨core, lower, hcore, hlower, rfl⟩ := List.getElem?_zipWith_eq_some.mp hcore'
  exact ⟨core, lower, hcore, hlower, rfl,
    List.getElem?_zipWith_eq_some.mpr ⟨core, lower, hcore, hlower, rfl⟩⟩

theorem length_cycleL1s (h : m.cores.length = m.switch.inputs.length) :
    m.cycleL1s.cores.length = m.cores.length ∧
      m.cycleL1s.switch.inputs.length = m.switch.inputs.length := by
  rw [cycleL1s, Core.cycleCaches_eq m.clock h]
  simp only [List.length_zipWith]
  omega

theorem cycleCheckers_eq
    (h : ∀ core ∈ m.cores, (core.checker.cycle m.clock core.l1.port).error? = none) :
    m.cycleCheckers = .ok { m with
      cores := m.cores.map fun core =>
        core.checked (core.checker.cycle m.clock core.l1.port).state } := by
  rw [cycleCheckers, Core.cycleCheckers_eq h]
  rfl

/-! ### The shape after a phase -/

theorem Shaped.links (h : m.Shaped c resolver) : m.cores.length = m.switch.inputs.length :=
  h.length.trans h.switch.links.symm

theorem Shaped.cycleTable (h : m.Shaped c resolver) : m.cycleTable.Shaped c resolver :=
  ⟨h.length, h.cores, h.switch, h.delay, h.l2,
    (RangeTable.entries_cycle m.clock m.table).trans h.entries,
    (RangeTable.latency_cycle m.clock m.table).trans h.latency⟩

theorem Shaped.cycleL2 (h : m.Shaped c resolver) : m.cycleL2.Shaped c resolver :=
  ⟨h.length, h.cores, h.switch, h.delay, (RangeCache.config_cycle m.clock _ m.l2).trans h.l2,
    h.entries, h.latency⟩

theorem Shaped.cycleL1s (h : m.Shaped c resolver) : m.cycleL1s.Shaped c resolver := by
  obtain ⟨hcores, hinputs⟩ := length_cycleL1s h.links
  refine ⟨hcores.trans h.length, fun i core' hcore' => ?_, ?_, h.delay, h.l2, h.entries, h.latency⟩
  · obtain ⟨core, lower, hcore, -, rfl, -⟩ := cores_cycleL1s h.links hcore'
    exact (h.cores i core hcore).cycleCache m.clock lower
  · exact ⟨h.switch.pos, h.switch.le, hinputs.trans h.switch.links, h.switch.shift, h.switch.mode,
      h.switch.grants, h.switch.responses⟩

theorem Shaped.cycleSwitch (h : m.Shaped c resolver) : m.cycleSwitch.state.Shaped c resolver :=
  ⟨h.length, h.cores, h.switch.cycle m.clock m.l2.port,
    (Switch.delay_cycle m.clock m.l2.port m.switch).trans h.delay, h.l2, h.entries, h.latency⟩

theorem Shaped.withCores (h : m.Shaped c resolver) {f : Core → Core}
    (hf : ∀ i core, m.cores[i]? = some core → core.Shaped c resolver i →
      (f core).Shaped c resolver i) :
    ({ m with cores := m.cores.map f } : Machine).Shaped c resolver := by
  refine ⟨(List.length_map f).trans h.length, fun i core' hcore' => ?_, h.switch, h.delay, h.l2,
    h.entries, h.latency⟩
  rw [List.getElem?_map, Option.map_eq_some_iff] at hcore'
  obtain ⟨core, hcore, rfl⟩ := hcore'
  exact hf i core hcore (h.cores i core hcore)

theorem Shaped.exchange (h : m.Shaped c resolver) : m.exchange.Shaped c resolver :=
  have h' := h.withCores fun _ _ _ hcore => hcore.exchange m.clock
  ⟨h'.length, h'.cores, h'.switch, h'.delay, h'.l2, h'.entries, h'.latency⟩

theorem Shaped.push (h : m.Shaped c resolver) (trace : Trace) :
    (m.push trace).state.Shaped c resolver := by
  obtain ⟨core, hcore, heq⟩ | ⟨-, heq⟩ := m.push_cases trace
  · rw [heq]
    refine ⟨List.length_set.trans h.length, fun i core' hcore' => ?_, h.switch, h.delay, h.l2,
      h.entries, h.latency⟩
    obtain ⟨rfl, -, rfl⟩ | ⟨-, hcore'⟩ := getElem?_set_cases hcore'
    · have hold := h.cores _ _ hcore
      exact ⟨hold.id, hold.config, hold.resolve, hold.capacity, hold.l1⟩
    · exact h.cores i core' hcore'
  · rw [heq]
    exact h

theorem Shaped.reset (h : m.Shaped c resolver) : m.reset.Shaped c resolver := by
  have h' := h.withCores fun _ _ _ hcore => hcore.reset
  exact ⟨h'.length, h'.cores, h.switch.reset, h.delay, h.l2, h.entries, h.latency⟩

theorem Shaped.dropCompleted (h : m.Shaped c resolver) : m.dropCompleted.Shaped c resolver :=
  h.withCores fun _ _ _ hcore => ⟨hcore.id, hcore.config, hcore.resolve, hcore.capacity, hcore.l1⟩

theorem Shaped.dropVerdicts (h : m.Shaped c resolver) : m.dropVerdicts.Shaped c resolver :=
  h.withCores fun _ _ _ hcore => ⟨hcore.id, hcore.config, hcore.resolve, hcore.capacity, hcore.l1⟩

theorem shaped_fresh (h : c.Accepted) (resolver : Resolver) :
    (fresh c resolver).Shaped c resolver := by
  refine ⟨by simp [fresh], fun i core hcore => ?_, Switch.shape_fresh h.pos h.le c.switch, rfl, rfl,
    rfl, rfl⟩
  rw [fresh, List.getElem?_map, Option.map_eq_some_iff] at hcore
  obtain ⟨id, hid, rfl⟩ := hcore
  obtain ⟨hlt, hid⟩ := List.getElem?_eq_some_iff.mp hid
  rw [List.getElem_range] at hid
  subst hid
  exact ⟨rfl, rfl, rfl, List.length_replicate, rfl⟩

end Machine

end BoundsCheck
