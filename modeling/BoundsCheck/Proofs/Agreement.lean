import Mathlib.Algebra.BigOperators.Group.List.Basic
import BoundsCheck.Proofs.History
import BoundsCheck.Proofs.Progress
import BoundsCheck.Proofs.Tallies

/-!
# Agreement of counters

A machine publishes the counters of all its components.  At all times those of two neighbours differ
by what is under way between them: a phase of a cycle changes the counters of one component, or of
one in each core, and each of them counts what it does to its links.

* `Machine.Tallied` — the counters agree wherever two components meet.
* `Machine.Tallied.cycle` — a cycle keeps this.
* `Drive.CountersAgree` — the counters of a machine in use agree.
* `Drive.counters_agree` — they do so whatever was asked of it.
-/

set_option autoImplicit false

namespace BoundsCheck

open Lookup

/-! ## Cores -/

namespace Core

/-- Traces that are exchanged do not concern the cache nor any counter. -/
theorem exchange_keeps (now : Nat) (core : Core) :
    (core.exchange now).l1 = core.l1 ∧ (core.exchange now).checker.stats = core.checker.stats := by
  rw [exchange, feed]
  split
  · exact ⟨rfl, rfl⟩
  · exact ⟨rfl, rfl⟩

theorem tallied_exchange {taken : Nat} {core : Core} (h : core.checker.Tallied taken) (now : Nat) :
    (core.exchange now).checker.Tallied taken := by
  rw [exchange, feed]
  split
  · exact ⟨h.traces, h.lookups, h.responses, h.recorded, h.dropped, h.forwarded⟩
  · exact ⟨h.traces, h.lookups, h.responses, h.recorded, h.dropped, h.forwarded⟩

theorem length_output_exchange (now : Nat) (core : Core) :
    (core.leaving now).length + (core.exchange now).checker.output.length
      = core.checker.output.length := by
  have hdrain := congrArg List.length (core.checker.output.items_drain now)
  rw [List.length_append, Port.length_items, Port.length_items] at hdrain
  rw [exchange, feed]
  split
  · exact hdrain.symm
  · exact hdrain.symm

theorem length_input_exchange (now : Nat) (core : Core) :
    (core.exchange now).checker.input.length
      = core.checker.input.length + if (core.collect now).entering?.isSome then 1 else 0 := by
  rw [exchange, feed]
  split
  · rename_i hnone
    rw [hnone]
    rfl
  · rename_i trace hsome
    rw [hsome]
    exact Port.length_send trace 1 now _

theorem sum_input_exchange (now : Nat) (cores : List Core) :
    ((cores.map (·.exchange now)).map fun core =>
        core.checker.stats.traces + core.checker.input.length).sum
      = (cores.map fun core => core.checker.stats.traces + core.checker.input.length).sum
        + cores.countP fun core => (core.collect now).entering?.isSome := by
  induction cores with
  | nil => rfl
  | cons core cores ih =>
    have hinput := core.length_input_exchange now
    simp only [List.map_cons, List.sum_cons, List.countP_cons, ih, hinput,
      (core.exchange_keeps now).2]
    omega

theorem sum_output_exchange (now : Nat) (cores : List Core) :
    (cores.flatMap (·.leaving now)).length
        + ((cores.map (·.exchange now)).map (·.checker.output.length)).sum
      = (cores.map (·.checker.output.length)).sum := by
  rw [List.length_flatMap, List.map_map, ← List.sum_map_add]
  exact congrArg List.sum (List.map_congr_left fun core _ => core.length_output_exchange now)

end Core

/-! ## Machines -/

/-- The counters of a machine agree wherever two of its components meet. -/
structure Machine.Tallied (m : Machine) : Prop where
  /-- Each cache of a core agrees with its checker and with its input of the switch. -/
  cores : ∀ i (core : Core), m.cores[i]? = some core →
    core.l1.Tallied core.checker.stats.lookups (m.switch.grants i) (m.switch.deliveries i)
      (m.switch.linkOf i)
  /-- The shared cache agrees with the switch and with the table. -/
  l2 : m.l2.Tallied m.switch.stats.grants.sum m.table.stats.lookups m.table.stats.lookups
    m.table.port
  /-- Each trace that was fed to a checker was taken in or waits. -/
  tracesIn : m.stats.tracesIn
    = (m.cores.map fun core => core.checker.stats.traces + core.checker.input.length).sum
  /-- Each trace that a checker has let go was taken or is on its way. -/
  tracesOut : m.stats.tracesOut + (m.cores.map (·.checker.output.length)).sum
    = (m.cores.map (·.checker.stats.emitted)).sum

namespace Machine

variable {c : Config} {resolver : Resolver} {m : Machine}

/-- The caches of the cores do not concern the checkers. -/
theorem map_checker_cycleL1s (h : m.cores.length = m.switch.inputs.length) (f : Checker → Nat) :
    m.cycleL1s.cores.map (fun core => f core.checker) = m.cores.map fun core => f core.checker := by
  have hfst := List.map_fst_zip (Nat.le_of_eq h)
  rw [cycleL1s, Core.cycleCaches_eq m.clock h, List.map_zipWith]
  show m.cores.zipWith (fun core _ => f core.checker) m.switch.inputs = _
  rw [← List.map_uncurry_zip_eq_zipWith]
  conv_rhs => rw [← hfst, List.map_map]
  rfl

theorem Tallied.cycleTable (h : m.Tallied) : m.cycleTable.Tallied :=
  have hcounts := RangeTable.counts_cycle m.clock m.table
  ⟨h.cores, h.l2.withLower hcounts.1 hcounts.2, h.tracesIn, h.tracesOut⟩

theorem Tallied.cycleL2 (h : m.Tallied) (hb : m.Balanced) : m.cycleL2.Tallied :=
  ⟨h.cores, h.l2.cycle hb.misses ((add_zero _).trans hb.below) m.clock, h.tracesIn, h.tracesOut⟩

theorem Tallied.cycleL1s (h : m.Tallied) (hs : m.Shaped c resolver) (hb : m.Balanced) :
    m.cycleL1s.Tallied := by
  refine ⟨fun i core' hcore' => ?_, h.l2, ?_, ?_⟩
  · obtain ⟨core, lower, hcore, hlower, rfl, hlower'⟩ := cores_cycleL1s hs.links hcore'
    have hbelow := (hb.cores i core hcore).below
    have htallied := h.cores i core hcore
    rw [Machine.below, hlower, Option.elim_some] at hbelow
    rw [Switch.linkOf_eq hlower] at htallied
    rw [Switch.linkOf_eq hlower']
    exact htallied.cycle (hb.cores i core hcore).misses hbelow m.clock
  · rw [map_checker_cycleL1s hs.links fun checker => checker.stats.traces + checker.input.length]
    exact h.tracesIn
  · rw [map_checker_cycleL1s hs.links (·.output.length),
      map_checker_cycleL1s hs.links (·.stats.emitted)]
    exact h.tracesOut

theorem Tallied.cycleSwitch (h : m.Tallied)
    (hcounts : Switch.Counts (m.switch, m.l2.port) (m.switch.cycle m.clock m.l2.port).state) :
    m.cycleSwitch.state.Tallied :=
  ⟨fun i core hcore => (h.cores i core hcore).withLower (hcounts.passed i) (hcounts.delivered i),
    h.l2.withPort hcounts.shared, h.tracesIn, h.tracesOut⟩

/-- The checkers work, and count what they do. -/
theorem Tallied.checked (h : m.Tallied) {next : Core → Checker × Lookup.Link}
    (hcounts : ∀ core ∈ m.cores, Checker.Counts (core.checker, core.l1.port) (next core)) :
    ({ m with cores := m.cores.map fun core => core.checked (next core) } : Machine).Tallied := by
  refine ⟨fun i core' hcore' => ?_, h.l2, ?_, ?_⟩
  · rw [List.getElem?_map, Option.map_eq_some_iff] at hcore'
    obtain ⟨core, hcore, rfl⟩ := hcore'
    exact (h.cores i core hcore).withPort (hcounts core (List.mem_of_getElem? hcore)).asked
  · rw [h.tracesIn, List.map_map]
    exact congrArg List.sum (List.map_congr_left fun core hcore => ((hcounts core hcore).taken).symm)
  · have hsum := h.tracesOut
    have heach : (m.cores.map fun core =>
        (next core).1.stats.emitted + core.checker.output.length).sum
        = (m.cores.map fun core =>
          core.checker.stats.emitted + (next core).1.output.length).sum :=
      congrArg List.sum (List.map_congr_left fun core hcore => (hcounts core hcore).emitted)
    rw [List.sum_map_add, List.sum_map_add] at heach
    rw [List.map_map, List.map_map]
    show m.stats.tracesOut + (m.cores.map fun core => (next core).1.output.length).sum
      = (m.cores.map fun core => (next core).1.stats.emitted).sum
    omega

theorem Tallied.exchange (h : m.Tallied) : m.exchange.Tallied := by
  refine ⟨fun i core' hcore' => ?_, h.l2, ?_, ?_⟩
  · change (m.cores.map _)[i]? = some core' at hcore'
    rw [List.getElem?_map, Option.map_eq_some_iff] at hcore'
    obtain ⟨core, hcore, rfl⟩ := hcore'
    obtain ⟨hl1, hstats⟩ := core.exchange_keeps m.clock
    rw [hl1, hstats]
    exact h.cores i core hcore
  · show m.stats.tracesIn + _ = _
    rw [h.tracesIn]
    exact (Core.sum_input_exchange m.clock m.cores).symm
  · have houtput := Core.sum_output_exchange m.clock m.cores
    have hemitted : (m.cores.map (·.exchange m.clock)).map (·.checker.stats.emitted)
        = m.cores.map (·.checker.stats.emitted) := by
      rw [List.map_map]
      exact List.map_congr_left fun core _ => congrArg (·.emitted) (core.exchange_keeps m.clock).2
    have hsum := h.tracesOut
    show m.stats.tracesOut + _ + _ = ((m.cores.map (·.exchange m.clock)).map _).sum
    rw [hemitted, Nat.add_assoc]
    exact (congrArg (m.stats.tracesOut + ·) houtput).trans hsum

/-- **A cycle keeps the tally of a regular machine.** -/
theorem Tallied.cycle (h : m.Tallied) (hm : m.Regular c resolver) (hc : c.Accepted)
    (hfit : c.TagsFit) : m.cycle.state.Tallied := by
  have hl2 := hm.cycleTable.cycleL2 hc
  have hlooked := hm.looked hc
  have hswitched := (hm.switched hc hfit).2
  have htallied : m.looked.Tallied :=
    ((h.cycleTable.cycleL2 hm.cycleTable.balanced).cycleL1s hl2.shaped hl2.balanced)
  have hcounts := hlooked.shaped.switch.counts_cycle hlooked.deliverable (hlooked.stampable hfit)
    m.looked.clock
  have hjudged : m.judged.Tallied := (htallied.cycleSwitch hcounts).checked fun core hcore =>
    Checker.counts_of_moves (hswitched.moves hcore m.clock).2
  have hexchanged := hjudged.exchange
  rw [hm.cycle_eq hc hfit]
  exact ⟨hexchanged.cores, hexchanged.l2, hexchanged.tracesIn, hexchanged.tracesOut⟩

/-! ### Calls -/

theorem Tallied.push (h : m.Tallied) (trace : Trace) : (m.push trace).state.Tallied := by
  obtain ⟨core, hcore, heq⟩ | ⟨-, heq⟩ := m.push_cases trace
  · rw [heq]
    have hsame : ∀ f : Checker → Nat,
        ((m.cores.set trace.coreId.toNat (core.give trace)).map fun core => f core.checker).sum
          = (m.cores.map fun core => f core.checker).sum := by
      intro f
      have hset := sum_map_set hcore (fun core => f core.checker) (core.give trace)
      exact Nat.add_right_cancel hset
    refine ⟨fun i core' hcore' => ?_, h.l2, ?_, ?_⟩
    · obtain ⟨rfl, -, rfl⟩ | ⟨-, hcore'⟩ := getElem?_set_cases hcore'
      · exact h.cores _ core hcore
      · exact h.cores i core' hcore'
    · exact h.tracesIn.trans
        (hsame fun checker => checker.stats.traces + checker.input.length).symm
    · exact (congrArg (m.stats.tracesOut + ·) (hsame (·.output.length))).trans
        (h.tracesOut.trans (hsame (·.stats.emitted)).symm)
  · rw [heq]
    exact h

/-- Changes of cores that concern no counter. -/
theorem Tallied.withCores (h : m.Tallied) {f : Core → Core}
    (hl1 : ∀ core, (f core).l1 = core.l1)
    (hstats : ∀ core, (f core).checker.stats = core.checker.stats)
    (hinput : ∀ core, (f core).checker.input = core.checker.input)
    (houtput : ∀ core, (f core).checker.output = core.checker.output) :
    ({ m with cores := m.cores.map f } : Machine).Tallied := by
  refine ⟨fun i core' hcore' => ?_, h.l2, ?_, ?_⟩
  · rw [List.getElem?_map, Option.map_eq_some_iff] at hcore'
    obtain ⟨core, hcore, rfl⟩ := hcore'
    rw [hl1, hstats]
    exact h.cores i core hcore
  · simp only [List.map_map, Function.comp_def, hstats, hinput]
    exact h.tracesIn
  · simp only [List.map_map, Function.comp_def, hstats, houtput]
    exact h.tracesOut

/-- A machine that was reset has counted nothing. -/
theorem tallied_reset (m : Machine) : m.reset.Tallied := by
  obtain ⟨hgrants, hdeliveries, hlink, hsum⟩ := m.switch.counts_reset
  refine ⟨fun i core' hcore' => ?_, ?_, ?_, ?_⟩
  · change (m.cores.map _)[i]? = some core' at hcore'
    rw [List.getElem?_map, Option.map_eq_some_iff] at hcore'
    obtain ⟨core, -, rfl⟩ := hcore'
    show core.l1.reset.Tallied 0 (m.switch.reset.grants i) (m.switch.reset.deliveries i)
      (m.switch.reset.linkOf i)
    rw [hgrants, hdeliveries, hlink]
    exact core.l1.tallied_reset
  · show m.l2.reset.Tallied m.switch.reset.stats.grants.sum 0 0 {}
    rw [hsum]
    exact m.l2.tallied_reset
  · show 0 = ((m.cores.map _).map _).sum
    rw [List.map_map]
    exact (List.sum_map_zero).symm
  · show 0 + ((m.cores.map _).map _).sum = ((m.cores.map _).map _).sum
    rw [List.map_map, List.map_map, Nat.zero_add]
    rfl

/-- **Whatever is asked of a regular machine, its counters agree.** -/
theorem Tallied.call (h : m.Tallied) (hm : m.Regular c resolver) (hc : c.Accepted)
    (hfit : c.TagsFit) (call : Call) : (m.call call).state.Tallied := by
  cases call with
  | push trace => exact h.push trace
  | cycle => exact h.cycle hm hc hfit
  | run limit =>
    exact (run_keeps (P := fun m => m.Regular c resolver ∧ m.Tallied)
      (fun m hm => ⟨hm.1.cycle hc hfit, hm.2.cycle hm.1 hc hfit⟩) limit m ⟨hm, h⟩).2
  | takeCompleted =>
    exact h.withCores (fun _ => rfl) (fun _ => rfl) (fun _ => rfl) fun _ => rfl
  | takeVerdicts =>
    exact h.withCores (fun _ => rfl) (fun _ => rfl) (fun _ => rfl) fun _ => rfl
  | reset => exact tallied_reset m

end Machine

/-! ## Machines in use -/

/-- The counters of a cache agree with each other, with what the component above has asked, and with
what the component below has taken and returned. -/
structure RangeCache.Agrees (asked taken returned : Nat) (lower : Lookup.Link) (c : RangeCache) :
    Prop where
  /-- Each lookup asked for was read or is on its way. -/
  reads : c.stats.reads + c.port.requests.length = asked
  /-- Each read is a hit, a miss or one that joined a miss. -/
  outcomes : c.stats.reads = c.stats.hits + c.stats.readMisses + c.stats.mergedMisses
  /-- Each miss was taken by the component below or is on its way. -/
  passed : c.stats.readMisses = taken + lower.requests.length
  /-- What is on its way back was returned. -/
  underway_le : lower.responses.length ≤ returned
  /-- What is waited for was a miss. -/
  pending_le : c.misses.size ≤ c.stats.readMisses
  /-- Each answer that was returned and is not on its way back has ended a miss. -/
  filled : returned - lower.responses.length = c.stats.readMisses - c.misses.size

theorem RangeCache.Tallied.agrees {asked taken returned : Nat} {lower : Lookup.Link}
    {c : RangeCache} (h : c.Tallied asked taken returned lower) :
    c.Agrees asked taken returned lower := by
  obtain ⟨filled, hcounted, hreturned⟩ := h.filled
  have hmisses := hcounted.misses
  exact ⟨h.reads, hcounted.reads, h.passed, by omega, by omega, by omega⟩

/-- The counters of all components of a machine in use agree. -/
structure Drive.CountersAgree (c : Config) (d : Drive) : Prop where
  /-- The counters of a checker agree with each other and with the verdicts it has reached, taken or
  not, and those of its cache with them and with those that the switch keeps for the core. -/
  cores : ∀ i < c.cores.toNat, ∃ core link granted delivered,
    d.machine.cores[i]? = some core ∧ d.machine.switch.inputs[i]? = some link ∧
      d.machine.switch.stats.grants[i]? = some granted ∧
      d.machine.switch.stats.responses[i]? = some delivered ∧
      core.checker.Tallied (verdictsOf i d.takenVerdicts).length ∧
      core.l1.Agrees core.checker.stats.lookups granted delivered link
  /-- The counters of the shared cache agree with those of the switch and of the table. -/
  l2 : d.machine.l2.Agrees d.machine.switch.stats.grants.sum d.machine.table.stats.lookups
    d.machine.table.stats.lookups d.machine.table.port
  /-- Each trace that was fed to a checker was taken in or waits. -/
  tracesIn : d.machine.stats.tracesIn
    = (d.machine.cores.map fun core => core.checker.stats.traces + core.checker.input.length).sum
  /-- Each trace that a checker has let go was taken or is on its way. -/
  tracesOut : d.machine.stats.tracesOut + (d.machine.cores.map (·.checker.output.length)).sum
    = (d.machine.cores.map (·.checker.stats.emitted)).sum

namespace Drive

variable {c : Config} {m : Machine} {resolver : Resolver}

theorem tallied (hnew : Machine.new c = .ok m) (hresolver : Resolver.ofConfig c = .ok resolver)
    (hfit : c.TagsFit) (calls : List Call) : ((start m).after calls).machine.Tallied := by
  obtain ⟨hc, other, hother, rfl⟩ := Machine.of_new hnew
  cases hresolver.symm.trans hother
  refine (after_keeps (P := fun d => d.machine.Regular c resolver ∧ d.machine.Tallied)
    (fun d call h => ?_) calls ⟨Machine.regular_fresh hc hfit resolver, ?_⟩).2
  · rw [machine_step]
    exact ⟨h.1.call hc hfit call, h.2.call h.1 hc hfit call⟩
  · show (Machine.fresh c resolver).Tallied
    rw [← Machine.reset_fresh]
    exact Machine.tallied_reset _

/-- The counters of each checker agree after any calls. -/
theorem tallied_checker (hnew : Machine.new c = .ok m)
    (hresolver : Resolver.ofConfig c = .ok resolver) (hfit : c.TagsFit) (calls : List Call)
    {i : Nat} {core : Core} (hcore : ((start m).after calls).machine.cores[i]? = some core) :
    core.checker.Tallied (((start m).after calls).history i).verdicts.length := by
  refine cores_keep (Q := fun history core => core.checker.Tallied history.verdicts.length)
    hnew hresolver hfit (fun _ h => h) (fun h hstep => ?_) (fun h => h) (fun h => ?_)
    (fun core => core.checker.tallied_reset) calls i core hcore
  · obtain ⟨l1, next, -, hsound, hmoves⟩ := hstep
    exact Core.tallied_exchange (h.moves hsound hmoves) _
  · rw [List.length_append]
    exact h.take

/-- **The counters of all components agree**, whatever was asked of a machine. -/
theorem counters_agree (hnew : Machine.new c = .ok m) (hfit : c.TagsFit) (calls : List Call) :
    ((start m).after calls).CountersAgree c := by
  obtain ⟨-, resolver, hresolver, -⟩ := Machine.of_new hnew
  have hshaped := (Drive.regular hnew hresolver hfit calls).shaped
  obtain ⟨hcores, hl2, htracesIn, htracesOut⟩ := tallied hnew hresolver hfit calls
  refine ⟨fun i hi => ?_, hl2.agrees, htracesIn, htracesOut⟩
  have hcore := List.getElem?_eq_getElem (hi.trans_eq hshaped.length.symm)
  have hlink := List.getElem?_eq_getElem (hi.trans_eq hshaped.switch.links.symm)
  have hgranted := List.getElem?_eq_getElem (hi.trans_eq hshaped.switch.grants.symm)
  have hdelivered := List.getElem?_eq_getElem (hi.trans_eq hshaped.switch.responses.symm)
  have hagrees := (hcores i _ hcore).agrees
  rw [Switch.linkOf_eq hlink, Switch.grants, Switch.deliveries, List.getD_eq_getElem?_getD,
    List.getD_eq_getElem?_getD, hgranted, hdelivered, Option.getD_some, Option.getD_some] at hagrees
  exact ⟨_, _, _, _, hcore, hlink, hgranted, hdelivered,
    tallied_checker hnew hresolver hfit calls hcore, hagrees⟩

/-- Two cores are at work: the first one has had an answer, the second one waits for its own. -/
theorem counters_agree_two_cores :
    ∃ m, Machine.new { cores := 2 } = .ok m ∧ Config.TagsFit { cores := 2 } ∧
      ((start m).after [.push (.load 1 0xFEFFFFC8 4),
        .push { uuid := 2, coreId := 1, kind := .store, blocks := [[⟨0x8000A820, 4⟩]] },
        .run 16, .takeVerdicts]).CountersAgree { cores := 2 } :=
  ⟨_, rfl, by decide, counters_agree (c := { cores := 2 }) rfl (by decide)
    [.push (.load 1 0xFEFFFFC8 4),
      .push { uuid := 2, coreId := 1, kind := .store, blocks := [[⟨0x8000A820, 4⟩]] },
      .run 16, .takeVerdicts]⟩

end Drive

end BoundsCheck
