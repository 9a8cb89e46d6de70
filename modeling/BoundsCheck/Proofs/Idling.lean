import BoundsCheck.Proofs.Flight
import BoundsCheck.Proofs.Shifting

/-!
# Idle machines

A machine that has nothing to do does nothing but count cycles.  Since nothing in a machine depends
on the time, it does not matter how long it waits before it is given its first trace.

* `Machine.cycle_of_idle` — a machine with nothing to do only counts the cycle.
* `Drive.after_idle` — cycles that come before everything else only put the clock forward.
* `Machine.Shifts` — what is asked of a machine ends the same way with the clock put forward.
* `Drive.SameLater` — two machines have come to the same, the second one later.
* `Drive.time_shifts` — a machine in use does not depend on the time.
-/

set_option autoImplicit false

namespace BoundsCheck

open Lookup

/-! ## Components with nothing to do -/

namespace Core

/-- The caches of cores at rest have nothing to do. -/
theorem cycleCaches_of_atRest {cores : List Core} {lowers : List Lookup.Link}
    (hcores : ∀ core ∈ cores, core.AtRest) (hlowers : ∀ lower ∈ lowers, lower = {}) (now : Nat) :
    cycleCaches now cores lowers = (cores, lowers) := by
  induction cores generalizing lowers with
  | nil => rw [cycleCaches]; simp
  | cons core cores ih =>
    cases lowers with
    | nil => rw [cycleCaches]; simp
    | cons lower lowers =>
      obtain ⟨hcore, hothers⟩ := List.forall_mem_cons.mp hcores
      obtain ⟨rfl, hbelow⟩ := List.forall_mem_cons.mp hlowers
      simp only [cycleCaches, hcore.cycleCache, ih hothers hbelow]

end Core

namespace Stats.Switch

@[simp] theorem grant_zero (s : Stats.Switch) (input : Nat) : s.grant input 0 = s := by
  have hsame : s.grants.modify input (· + 0) = s.grants := List.modify_id input s.grants
  rw [grant, hsame]

@[simp] theorem respond_zero (s : Stats.Switch) (input : Nat) : s.respond input 0 = s := by
  have hsame : s.responses.modify input (· + 0) = s.responses := List.modify_id input s.responses
  rw [respond, hsame]

end Stats.Switch

/-- A switch with nothing on any link stays as it is. -/
theorem Switch.cycle_of_idle {s : Switch} (h : ∀ link ∈ s.inputs, link = {}) (now : Nat) :
    s.cycle now {} = .ok (s, {}) := by
  rcases hmode : s.mode with _ | arbiter
  · rw [cycle, hmode]
    obtain ⟨_ | ⟨input, others⟩, mode, delay, shift, stats⟩ := s
    · rfl
    · obtain ⟨rfl, -⟩ := List.forall_mem_cons.mp h
      simp [passThrough, Port.moveInto, Port.empty, Port.length]
  · have hroute : s.route now {} = .ok (s, {}) := rfl
    have hnone : arbiter.winner? (s.requestVisible now) = none := by
      refine List.find?_eq_none.mpr fun input _ hvisible => ?_
      obtain ⟨link, packet, rest, hlink, hpop⟩ := requestVisible_iff.mp hvisible
      rw [h link (List.mem_of_getElem? hlink)] at hpop
      cases hpop
    rw [cycle_of_route hmode hroute, grant, Arbiter.select, hnone]

namespace Core

theorem AtRest.cycleChecker {core : Core} (h : core.AtRest) (now : Nat) :
    core.cycleChecker now = .ok core := by
  rw [Core.cycleChecker, h.cycle_checker]
  rfl

/-- Cores at rest exchange no trace. -/
theorem AtRest.exchanges_none {core : Core} (h : core.AtRest) (now : Nat) :
    core.leaving now = [] ∧ (core.collect now).entering? = none := by
  refine ⟨?_, ?_⟩
  · rw [leaving, h.output]
    rfl
  · have hqueue : (core.collect now).queue = [] := h.queue
    rw [entering?, hqueue]
    simp

end Core

namespace Machine

variable {m : Machine}

/-! ### The phases -/

theorem AtRest.cycleTable (h : m.AtRest) : m.cycleTable = m := by
  have hcycle : m.table.cycle m.clock = m.table :=
    RangeTable.cycle_of_idle (by rw [h.table]; rfl)
  rw [Machine.cycleTable, hcycle]

theorem AtRest.cycleL2 (h : m.AtRest) : m.cycleL2 = m := by
  have hcycle : m.l2.cycle m.clock m.table.port = (m.l2, m.table.port) :=
    h.l2.cycle (by rw [h.table]; rfl)
  rw [Machine.cycleL2, hcycle]

theorem AtRest.cycleL1s (h : m.AtRest) : m.cycleL1s = m := by
  rw [Machine.cycleL1s, Core.cycleCaches_of_atRest h.cores h.inputs]

theorem AtRest.cycleSwitch (h : m.AtRest) : m.cycleSwitch = .ok m := by
  have hempty := h.l2.port
  have hcycle : m.switch.cycle m.clock m.l2.port = .ok (m.switch, m.l2.port) := by
    rw [hempty, Switch.cycle_of_idle h.inputs]
  rw [Machine.cycleSwitch, hcycle]
  rfl

theorem AtRest.cycleCheckers (h : m.AtRest) : m.cycleCheckers = .ok m := by
  have hcycle : Core.cycleCheckers m.clock m.cores
      = .ok (m.cores.map fun core => (core.cycleChecker m.clock).state) :=
    Core.cycleCheckers_eq fun core hcore => by rw [(h.cores core hcore).cycleChecker]; rfl
  have hsame : (m.cores.map fun core => (core.cycleChecker m.clock).state) = m.cores := by
    refine (List.map_congr_left fun core hcore => ?_).trans m.cores.map_id
    rw [(h.cores core hcore).cycleChecker]
    rfl
  rw [Machine.cycleCheckers, hcycle, hsame]
  rfl

theorem AtRest.exchange (h : m.AtRest) : m.exchange = m := by
  have hsame : m.cores.map (·.exchange m.clock) = m.cores :=
    (List.map_congr_left fun core hcore => (h.cores core hcore).exchange m.clock).trans m.cores.map_id
  have hleaving : m.cores.flatMap (·.leaving m.clock) = [] :=
    List.flatMap_eq_nil_iff.mpr fun core hcore => ((h.cores core hcore).exchanges_none m.clock).1
  have hentering : (m.cores.countP fun core => (core.collect m.clock).entering?.isSome) = 0 := by
    refine List.countP_eq_zero.mpr fun core hcore => ?_
    rw [((h.cores core hcore).exchanges_none m.clock).2]
    simp
  rw [Machine.exchange, hsame, hleaving, hentering]
  rfl

/-- **A machine with nothing to do only counts the cycle.** -/
theorem cycle_of_idle (h : m.busy = false) : m.cycle = .ok m.tick := by
  have hrest := atRest h
  rw [cycle, hrest.cycleTable, hrest.cycleL2, hrest.cycleL1s, hrest.cycleSwitch]
  show (m.cycleCheckers).andThen _ = _
  rw [hrest.cycleCheckers]
  show Outcome.ok m.exchange.tick = _
  rw [hrest.exchange]

end Machine

/-! ## Machines in use -/

namespace Machine

variable {c : Config} {resolver : Resolver}

/-- In a machine that has not been used there is no time to be moved but that of its clock. -/
theorem later_fresh (k : Nat) :
    (fresh c resolver).later k = { fresh c resolver with clock := k, stats.cycles := k } := by
  have hcores : (fresh c resolver).cores.map (.later k) = (fresh c resolver).cores := by
    rw [fresh, List.map_map]
    rfl
  have hswitch : (fresh c resolver).switch.later k = (fresh c resolver).switch := by
    simp [fresh, Switch.fresh, Switch.later]
  have hclock : (fresh c resolver).clock + k = k := Nat.zero_add k
  have hcycles : (fresh c resolver).stats.cycles + k = k := Nat.zero_add k
  rw [later, hcores, hswitch, hclock, hcycles]
  rfl

theorem busy_fresh : (fresh c resolver).busy = false := by
  have hcores : (fresh c resolver).cores.any (·.busy) = false := by
    rw [List.any_eq_false]
    intro core hcore
    obtain ⟨id, -, rfl⟩ := List.mem_map.mp hcore
    simp [Core.busy, Core.fresh, Checker.busy, Checker.new, SlotTable.isEmpty,
      SlotTable.ofCapacity, Port.hasPending, RangeCache.busy, RangeCache.fresh, Link.hasPending,
      MissTable.isEmpty]
  have hswitch : (fresh c resolver).switch.busy = false := by
    simp [fresh, Switch.fresh, Switch.busy, Link.hasPending, Port.hasPending]
  rw [busy, hcores, hswitch]
  rfl

/-- What is asked of a machine ends the same way if its clock is put forward by `k` cycles, and
leaves it with its clock put forward. -/
structure Shifts (k : Nat) (m : Machine) : Prop where
  cycle : (m.later k).cycle = m.cycle.map (.later k)
  push : ∀ trace, (m.later k).push trace = (m.push trace).map (.later k)
  /-- The same traces are taken. -/
  takeCompleted : (m.later k).allCompleted = m.allCompleted ∧
    (m.later k).dropCompleted = m.dropCompleted.later k
  /-- The same verdicts are taken, with their cycles moved. -/
  takeVerdicts : (m.later k).verdicts = m.verdicts.map (Prod.map id (.later k)) ∧
    (m.later k).dropVerdicts = m.dropVerdicts.later k
  /-- A run ends the same way if its limit is moved. -/
  run : ∀ limit, (m.later k).run (limit + k) = ((m.run limit).map (.later k)).mapError (.later k)
  busy : (m.later k).busy = m.busy

end Machine

namespace Drive

variable {c : Config} {m : Machine}

/-- The machine in use with its clock put forward by `k` cycles, and all that was taken from it moved
as well. -/
def later (k : Nat) (d : Drive) : Drive :=
  { d with
    machine := d.machine.later k
    takenVerdicts := d.takenVerdicts.map (Prod.map id (.later k)) }

theorem step_later {call : Call} (hcall : call ≠ .reset) (k : Nat) (d : Drive) :
    (d.later k).step (call.later k) = (d.step call).later k := by
  obtain ⟨hstate, herror⟩ := d.machine.call_later hcall k
  have hmachine : (d.later k).machine = d.machine.later k := rfl
  cases call with
  | push trace =>
    have hnone := congrArg Option.isNone herror
    rw [Option.isNone_map] at hnone
    simp only [step, Call.later, hmachine] at hstate hnone ⊢
    simp only [hstate, hnone]
    rfl
  | cycle =>
    simp only [step, Call.later, hmachine] at hstate ⊢
    rw [hstate]
    rfl
  | run limit =>
    simp only [step, Call.later, hmachine] at hstate ⊢
    rw [hstate]
    rfl
  | takeCompleted =>
    simp only [step, Call.later, hmachine, Machine.completed_later] at hstate ⊢
    rw [hstate]
    rfl
  | takeVerdicts =>
    simp only [step, Call.later, hmachine, Machine.verdicts_later] at hstate ⊢
    rw [hstate]
    simp only [later, List.map_append]
  | reset => exact absurd rfl hcall

/-- All that is asked of a machine in use may come later, unless it is reset. -/
theorem after_later {calls : List Call} (hcalls : ∀ call ∈ calls, call ≠ .reset) (k : Nat)
    (d : Drive) : (d.later k).after (calls.map (.later k)) = (d.after calls).later k := by
  induction calls generalizing d with
  | nil => rfl
  | cons call calls ih =>
    obtain ⟨hcall, hothers⟩ := List.forall_mem_cons.mp hcalls
    have hstep := step_later hcall k d
    show ((d.later k).step (call.later k)).after (calls.map (.later k)) = _
    rw [hstep]
    exact ih hothers (d.step call)

/-- Cycles that come before everything else only put the clock forward. -/
theorem after_idle (hnew : Machine.new c = .ok m) (k : Nat) :
    (start m).after (List.replicate k .cycle) = (start m).later k := by
  obtain ⟨-, resolver, -, rfl⟩ := Machine.of_new hnew
  induction k with
  | zero =>
    show start (Machine.fresh c resolver) = later 0 _
    rw [later, show (start (Machine.fresh c resolver)).machine = Machine.fresh c resolver from rfl,
      Machine.later_fresh]
    rfl
  | succ k ih =>
    have hidle : ((Machine.fresh c resolver).later k).busy = false := by
      rw [Machine.busy_later, Machine.busy_fresh]
    have hcycle : ((Machine.fresh c resolver).later k).cycle
        = .ok ((Machine.fresh c resolver).later (k + 1)) := by
      rw [Machine.cycle_of_idle hidle, Machine.later_fresh, Machine.later_fresh]
      rfl
    have hcall : ((start (Machine.fresh c resolver)).later k).machine.call .cycle
        = .ok ((Machine.fresh c resolver).later (k + 1)) := hcycle
    rw [List.replicate_succ', after_concat, ih]
    simp only [step, hcall]
    rfl

theorem completed_later (k core : Nat) (d : Drive) :
    (d.later k).completed core = d.completed core :=
  congrArg (d.takenCompleted core ++ ·) (d.machine.completed_later k core)

theorem verdictsOf_later (k core : Nat) (verdicts : List (UInt64 × Verdict)) :
    verdictsOf core (verdicts.map (Prod.map id (.later k)))
      = (verdictsOf core verdicts).map (.later k) := by
  induction verdicts with
  | nil => rfl
  | cons verdict verdicts ih =>
    by_cases hcore : verdict.1 = UInt64.ofNat core
    · simpa [verdictsOf, hcore] using ih
    · simpa [verdictsOf, hcore] using ih

theorem verdicts_later (k core : Nat) (d : Drive) :
    (d.later k).verdicts core = (d.verdicts core).map (.later k) := by
  have hmachine : (d.later k).machine.verdicts = _ := d.machine.verdicts_later k
  rw [verdicts, verdicts, hmachine, ← verdictsOf_later, List.map_append]
  rfl

/-- The second drive has come to the same as the first one, only `k` cycles later. -/
structure SameLater (k : Nat) (d d' : Drive) : Prop where
  machine : d'.machine = d.machine.later k
  /-- The same traces are completed. -/
  completed : ∀ core, d'.completed core = d.completed core
  /-- The same verdicts are reached, with their cycles moved. -/
  verdicts : ∀ core, d'.verdicts core = (d.verdicts core).map (.later k)
  /-- The same is counted, except for the cycles. -/
  report : d'.machine.report
    = { d.machine.report with run.cycles := d.machine.report.run.cycles + k }

theorem sameLater_later (k : Nat) (d : Drive) : d.SameLater k (d.later k) where
  machine := rfl
  completed core := d.completed_later k core
  verdicts core := d.verdicts_later k core
  report := d.machine.report_later k

/-- **A machine does not depend on the time.**  Whatever was asked of it, if its clock is put
forward, then all that is asked further ends the same way.  And if it waits for some cycles before it
is given anything, then it comes to the same as without, only later. -/
theorem time_shifts (hnew : Machine.new c = .ok m) :
    (∀ calls k, ((start m).after calls).machine.Shifts k) ∧
      ∀ calls idle, (∀ call ∈ calls, call ≠ .reset) →
        ((start m).after calls).SameLater idle
          ((start m).after (List.replicate idle .cycle ++ calls.map (.later idle))) := by
  refine ⟨fun calls k => ?_, fun calls idle hcalls => ?_⟩
  · exact ⟨Machine.cycle_later k _, fun trace => Machine.push_later trace k _,
      ⟨Machine.allCompleted_later k _, Machine.dropCompleted_later k _⟩,
      ⟨Machine.verdicts_later k _, Machine.dropVerdicts_later k _⟩,
      fun limit => Machine.run_later limit k _, Machine.busy_later k _⟩
  · have hafter : (start m).after (List.replicate idle .cycle ++ calls.map (.later idle))
        = ((start m).after calls).later idle := by
      have hidle := after_idle hnew idle
      rw [after] at hidle
      rw [after, List.foldl_append, hidle]
      exact after_later hcalls idle (start m)
    rw [hafter]
    exact sameLater_later idle _

/-- Two cores, the second of which is given a trace while the first one waits for the table.  When
they are given the same traces five cycles later, it all ends the same way. -/
theorem time_shifts_two_cores :
    ∃ m, Machine.new { cores := 2 } = .ok m ∧
      ((start m).after [.push (.load 1 0xFEFFFFC8 4), .cycle, .cycle, .cycle]).machine.Shifts 7 ∧
      ((start m).after [.push (.load 1 0xFEFFFFC8 4), .cycle, .cycle,
          .push { uuid := 2, coreId := 1, kind := .store, blocks := [[⟨0x8000A820, 4⟩]] },
          .run 40, .takeVerdicts]).SameLater 5
        ((start m).after [.cycle, .cycle, .cycle, .cycle, .cycle, .push (.load 1 0xFEFFFFC8 4),
          .cycle, .cycle,
          .push { uuid := 2, coreId := 1, kind := .store, blocks := [[⟨0x8000A820, 4⟩]] },
          .run 45, .takeVerdicts]) :=
  ⟨_, rfl, (time_shifts (c := { cores := 2 }) rfl).1 _ 7,
    (time_shifts (c := { cores := 2 }) rfl).2 [.push (.load 1 0xFEFFFFC8 4), .cycle, .cycle,
      .push { uuid := 2, coreId := 1, kind := .store, blocks := [[⟨0x8000A820, 4⟩]] },
      .run 40, .takeVerdicts] 5 (by decide)⟩

end Drive

end BoundsCheck
