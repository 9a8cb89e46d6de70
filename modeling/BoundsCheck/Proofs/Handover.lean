import BoundsCheck.Proofs.History
import BoundsCheck.Proofs.Resetting
import BoundsCheck.Proofs.Shifting

/-!
# Handing over results

The results of a machine, the traces that its cores have completed and the verdicts on them, are
only ever written.  So it makes no difference to a machine whether and when they are taken from it.
If what was taken is put back in front of what is left, then every step of every component ends as
before, with the same in front of its results; and whatever else is asked of the machine is answered
as if nothing had been taken.

* `Checker.putBack`, `Core.putBack`, `Machine.putBack` — with earlier results put back.
* `Machine.cycle_putBack`, `Machine.run_putBack` — which makes no difference to a cycle or a run.
* `Drive.whole` — a machine in use, with everything put back that was taken from it.
* `Machine.answer`, `Drive.transcript` — what calls are answered with.
* `Drive.taken_after` — what has been taken is what the answers handed over.
* `Drive.handover_unnoticed` — no other call notices whether results are taken.
-/

set_option autoImplicit false

namespace BoundsCheck

open Lookup

variable {now : Nat}

/-! ## Checkers -/

namespace Checker

/-- The checker with some earlier verdicts put back. -/
def putBack (earlier : List Verdict) (c : Checker) : Checker :=
  { c with verdicts := earlier ++ c.verdicts }

variable {earlier : List Verdict}

theorem record_putBack (v : Verdict) (c : Checker) :
    (c.putBack earlier).record v = (c.record v).putBack earlier := by
  simp only [record, putBack, List.append_assoc]

theorem finish_putBack (tag : Tag) (c : Checker) :
    (c.putBack earlier).finish now tag = (c.finish now tag).map (putBack earlier) := by
  have hslots : (c.putBack earlier).slots = c.slots := rfl
  rw [finish, finish, hslots]
  rcases c.slots.release tag with e | ⟨pending, slots⟩
  · rfl
  · rfl

/-- A checker judges as before. -/
theorem complete_putBack (rsp : Response) (c : Checker) :
    (c.putBack earlier).complete now rsp = (c.complete now rsp).map (putBack earlier) := by
  have hslots : (c.putBack earlier).countResponse.slots = c.countResponse.slots := rfl
  simp only [complete, hslots]
  rcases c.countResponse.slots.modify rsp.tag _ with e | ⟨pending, slots⟩
  · rfl
  · have hrecord : ({ (c.putBack earlier).countResponse with slots } : Checker).record
          (verdictOf now rsp pending.trace)
        = ({ c.countResponse with slots }.record (verdictOf now rsp pending.trace)).putBack earlier :=
      record_putBack (verdictOf now rsp pending.trace) { c.countResponse with slots }
    simp only [hrecord]
    by_cases hlast : pending.remaining = 0
    · simp only [if_pos hlast]
      exact finish_putBack rsp.tag _
    · simp only [if_neg hlast]
      rfl

theorem issue_putBack (l1 : Lookup.Link) (c : Checker) :
    (c.putBack earlier).issue now l1
      = (c.issue now l1).map fun next => (next.1.putBack earlier, next.2) := by
  have hinput : (c.putBack earlier).input = c.input := rfl
  have hresolve : (c.putBack earlier).resolve = c.resolve := rfl
  rw [issue, issue, hinput]
  rcases c.input.pop? now with _ | ⟨packet, rest⟩
  · rfl
  · rcases hfirst : packet.item.firstAccess? with _ | access
    · simp only [hfirst]
      rfl
    · rcases hid : c.resolve access.addr with _ | id
      · simp only [hfirst, hresolve, hid, unresolved]
        rcases hpolicy : c.config.unresolved with _ | _
        · have hpolicy' : (c.putBack earlier).config.unresolved = .drop := hpolicy
          simp only [hpolicy']
          rfl
        · have hpolicy' : (c.putBack earlier).config.unresolved = .forward := hpolicy
          simp only [hpolicy']
          rfl
      · have hslots : (c.putBack earlier).slots = c.slots := rfl
        simp only [hfirst, hresolve, hid, lookUp, hslots]
        rcases c.slots.allocate ⟨packet.item, 1⟩ with e | ⟨tag, slots⟩
        · rfl
        · rfl

theorem takeResponse_putBack (l1 : Lookup.Link) (c : Checker) :
    (c.putBack earlier).takeResponse now l1
      = (c.takeResponse now l1).map fun next => (next.1.putBack earlier, next.2) := by
  rw [takeResponse, takeResponse]
  rcases l1.responses.pop? now with _ | ⟨packet, rest⟩
  · rfl
  · simp only [complete_putBack]
    rfl

theorem cycle_putBack (l1 : Lookup.Link) (c : Checker) :
    (c.putBack earlier).cycle now l1
      = (c.cycle now l1).map fun next => (next.1.putBack earlier, next.2) := by
  rw [cycle, cycle, takeResponse_putBack]
  exact Outcome.andThen_map fun next => issue_putBack next.2 next.1

end Checker

/-! ## Cores -/

namespace Core

/-- The core with the results put back that were taken from it. -/
def putBack (history : History) (core : Core) : Core :=
  { core with
    checker := core.checker.putBack history.verdicts
    completed := history.completed ++ core.completed }

variable {history : History}

theorem cycleCache_putBack (lower : Lookup.Link) (core : Core) :
    (core.putBack history).cycleCache now lower
      = ((core.cycleCache now lower).1.putBack history, (core.cycleCache now lower).2) :=
  rfl

theorem cycleChecker_putBack (core : Core) :
    (core.putBack history).cycleChecker now = (core.cycleChecker now).map (putBack history) := by
  have hcycle : (core.putBack history).checker.cycle now (core.putBack history).l1.port = _ :=
    Checker.cycle_putBack core.l1.port core.checker
  rw [cycleChecker, cycleChecker, hcycle]
  rfl

/-- A core exchanges the same traces. -/
theorem exchange_putBack (core : Core) :
    (core.putBack history).exchange now = (core.exchange now).putBack history := by
  have hcollect : (core.putBack history).collect now = (core.collect now).putBack history := by
    simp only [collect, putBack, leaving, List.append_assoc]
    rfl
  have hentering : ((core.collect now).putBack history).entering? = (core.collect now).entering? :=
    rfl
  rw [exchange, exchange, hcollect, feed, feed, hentering]
  rcases (core.collect now).entering? with _ | trace
  · rfl
  · rfl

/-! ### All cores at once -/

/-- The cores with all results put back that were taken from them. -/
def putBackAll (histories : Nat → History) (cores : List Core) : List Core :=
  cores.mapIdx fun i core => core.putBack (histories i)

theorem putBackAll_cons (histories : Nat → History) (core : Core) (cores : List Core) :
    putBackAll histories (core :: cores)
      = core.putBack (histories 0) :: putBackAll (fun i => histories (i + 1)) cores :=
  List.mapIdx_cons

/-- What does not read the results is the same for all cores. -/
theorem map_putBackAll {α : Type} {f : Core → α}
    (hf : ∀ history core, f (putBack history core) = f core) (histories : Nat → History)
    (cores : List Core) : (putBackAll histories cores).map f = cores.map f := by
  induction cores generalizing histories with
  | nil => rfl
  | cons core cores ih => rw [putBackAll_cons, List.map_cons, hf, ih, List.map_cons]

theorem exchange_putBackAll (histories : Nat → History) (cores : List Core) :
    (putBackAll histories cores).map (·.exchange now)
      = putBackAll histories (cores.map (·.exchange now)) := by
  induction cores generalizing histories with
  | nil => rfl
  | cons core cores ih =>
    rw [putBackAll_cons, List.map_cons, exchange_putBack, ih, List.map_cons, putBackAll_cons]

theorem cycleCaches_putBackAll (histories : Nat → History) (cores : List Core)
    (lowers : List Lookup.Link) :
    cycleCaches now (putBackAll histories cores) lowers
      = (putBackAll histories (cycleCaches now cores lowers).1, (cycleCaches now cores lowers).2) := by
  induction cores generalizing histories lowers with
  | nil => cases lowers <;> rfl
  | cons core cores ih =>
    cases lowers with
    | nil => simp [cycleCaches, putBackAll_cons]
    | cons lower lowers =>
      simp only [putBackAll_cons, cycleCaches, cycleCache_putBack, ih]

theorem cycleCheckers_putBackAll (histories : Nat → History) (cores : List Core) :
    cycleCheckers now (putBackAll histories cores)
      = (cycleCheckers now cores).map (putBackAll histories) := by
  induction cores generalizing histories with
  | nil => rfl
  | cons core cores ih =>
    simp only [putBackAll_cons, cycleCheckers, cycleChecker_putBack, Outcome.error?_map, ih]
    rcases (core.cycleChecker now).error? with _ | e
    · simp only [Outcome.map, putBackAll_cons]
    · simp only [Outcome.map, Outcome.fail, putBackAll_cons]

end Core

/-! ## Machines -/

namespace Machine

variable {m : Machine} {histories : Nat → Core.History}

/-- The machine with all results put back that were taken from its cores. -/
def putBack (histories : Nat → Core.History) (m : Machine) : Machine :=
  { m with cores := Core.putBackAll histories m.cores }

theorem getElem?_putBack (i : Nat) (m : Machine) :
    (m.putBack histories).cores[i]? = m.cores[i]?.map (·.putBack (histories i)) :=
  List.getElem?_mapIdx

/-- With other results put back, changed cores can be what they were with the results they had. -/
theorem putBack_withCores {others : Nat → Core.History} {f : Core → Core}
    (hf : ∀ i core, m.cores[i]? = some core →
      (f core).putBack (others i) = core.putBack (histories i)) :
    ({ m with cores := m.cores.map f } : Machine).putBack others = m.putBack histories := by
  have hcores : Core.putBackAll others (m.cores.map f) = Core.putBackAll histories m.cores := by
    refine List.ext_getElem? fun i => ?_
    rw [Core.putBackAll, Core.putBackAll, List.getElem?_mapIdx, List.getElem?_mapIdx,
      List.getElem?_map]
    rcases hcore : m.cores[i]? with _ | core
    · rfl
    · exact congrArg some (hf i core hcore)
  rw [putBack, putBack, hcores]

theorem busy_putBack (m : Machine) : (m.putBack histories).busy = m.busy := by
  have hcores : (Core.putBackAll histories m.cores).any (·.busy) = m.cores.any (·.busy) := by
    have hmap := Core.map_putBackAll (f := Core.busy) (fun _ _ => rfl) histories m.cores
    simpa only [List.any_map, Function.id_comp] using congrArg (List.any · id) hmap
  rw [busy, busy]
  exact congrArg (fun busy => busy || m.switch.busy || m.l2.busy || m.table.busy) hcores

/-! ### Cycles -/

theorem cycleL1s_putBack (m : Machine) :
    (m.putBack histories).cycleL1s = m.cycleL1s.putBack histories := by
  have hcycle : Core.cycleCaches (m.putBack histories).clock (m.putBack histories).cores
      (m.putBack histories).switch.inputs = _ :=
    Core.cycleCaches_putBackAll histories m.cores m.switch.inputs
  rw [cycleL1s, hcycle]
  rfl

theorem cycleCheckers_putBack (m : Machine) :
    (m.putBack histories).cycleCheckers = m.cycleCheckers.map (putBack histories) := by
  have hcycle : Core.cycleCheckers (m.putBack histories).clock (m.putBack histories).cores = _ :=
    Core.cycleCheckers_putBackAll histories m.cores
  rw [cycleCheckers, hcycle]
  rfl

theorem exchange_putBack (m : Machine) :
    (m.putBack histories).exchange = m.exchange.putBack histories := by
  have hleaving : (Core.putBackAll histories m.cores).flatMap (·.leaving m.clock)
      = m.cores.flatMap (·.leaving m.clock) := by
    rw [List.flatMap_def, List.flatMap_def, Core.map_putBackAll fun _ _ => rfl]
  have hentering : (Core.putBackAll histories m.cores).countP
        (fun core => (core.collect m.clock).entering?.isSome)
      = m.cores.countP fun core => (core.collect m.clock).entering?.isSome := by
    have hmap := Core.map_putBackAll (f := fun core => (core.collect m.clock).entering?.isSome)
      (fun _ _ => rfl) histories m.cores
    simpa only [List.countP_map, Function.id_comp] using congrArg (List.countP id) hmap
  have hcores : (Core.putBackAll histories m.cores).map (·.exchange m.clock) = _ :=
    Core.exchange_putBackAll histories m.cores
  simp only [exchange, putBack, hleaving, hentering, hcores]

/-- **A cycle does not read the results.** -/
theorem cycle_putBack (histories : Nat → Core.History) (m : Machine) :
    (m.putBack histories).cycle = m.cycle.map (putBack histories) := by
  have hswitch : ((m.putBack histories).cycleTable.cycleL2.cycleL1s).cycleSwitch
      = (m.cycleTable.cycleL2.cycleL1s.cycleSwitch).map (putBack histories) := by
    have hlooked : (m.putBack histories).cycleTable.cycleL2.cycleL1s
        = m.cycleTable.cycleL2.cycleL1s.putBack histories := cycleL1s_putBack m.cycleTable.cycleL2
    rw [hlooked]
    rfl
  rw [cycle, cycle, hswitch, Outcome.andThen_map cycleCheckers_putBack]
  refine Outcome.andThen_map fun m => ?_
  rw [exchange_putBack]
  rfl

/-! ### Calls -/

theorem runFor_putBack (histories : Nat → Core.History) (fuel : Nat) (m : Machine) :
    (m.putBack histories).runFor fuel = (m.runFor fuel).map (putBack histories) := by
  induction fuel generalizing m with
  | zero =>
    rw [runFor, runFor, busy_putBack]
    split
    · rfl
    · rfl
  | succ fuel ih =>
    rw [runFor, runFor, busy_putBack]
    split
    · rw [cycle_putBack]
      exact Outcome.andThen_map ih
    · rfl

/-- And so neither does a run. -/
theorem run_putBack (histories : Nat → Core.History) (limit : Nat) (m : Machine) :
    (m.putBack histories).run limit = (m.run limit).map (putBack histories) :=
  runFor_putBack histories (limit - m.clock) m

theorem push_putBack (histories : Nat → Core.History) (trace : Trace) (m : Machine) :
    (m.putBack histories).push trace = (m.push trace).map (putBack histories) := by
  rw [push, push, getElem?_putBack]
  rcases m.cores[trace.coreId.toNat]? with _ | core
  · have hlength : (m.putBack histories).cores.length = m.cores.length := List.length_mapIdx
    simp only [Option.map_none, hlength]
    rfl
  · simp only [Option.map_some, putBack, Core.putBackAll, Outcome.map, Outcome.ok, List.mapIdx_set]
    rfl

/-! ### Results -/

/-- Once all results are dropped it does not matter what had been put back. -/
theorem drop_putBack (histories : Nat → Core.History) (m : Machine) :
    (m.putBack histories).dropCompleted.dropVerdicts = m.dropCompleted.dropVerdicts := by
  simp only [dropVerdicts, dropCompleted, putBack, List.map_map]
  rw [Core.map_putBackAll]
  intro history core
  rfl

theorem putBack_nothing (m : Machine) : m.putBack (fun _ => {}) = m := by
  have hcores : Core.putBackAll (fun _ => {}) m.cores = m.cores := by
    refine List.ext_getElem? fun i => ?_
    rw [Core.putBackAll, List.getElem?_mapIdx]
    exact Option.map_id'
  rw [putBack, hcores]

/-- What makes no difference to what a reset leaves does not change the numbers of the cores. -/
theorem Numbered.of_reset {m' : Machine} {n : Nat} (h : m.Numbered n) (heq : m'.reset = m.reset) :
    m'.Numbered n := by
  have hcores : m'.cores.map (·.reset) = m.cores.map (·.reset) := congrArg Machine.cores heq
  refine ⟨?_, h.le, fun i core' hcore' => ?_⟩
  · rw [← h.length, ← List.length_map (·.reset), hcores, List.length_map]
  · have hget : (m.cores.map (·.reset))[i]? = some core'.reset := by
      rw [← hcores, List.getElem?_map, hcore']
      rfl
    rw [List.getElem?_map, Option.map_eq_some_iff] at hget
    obtain ⟨core, hcore, hreset⟩ := hget
    have hid : core.reset.checker.id = core'.reset.checker.id := by rw [hreset]
    rw [← h.id i core hcore]
    exact hid.symm

end Machine

/-! ## What calls answer -/

/-- The call takes results. -/
def Call.takes : Call → Bool
  | .takeCompleted | .takeVerdicts => true
  | .push _ | .cycle | .run _ | .reset => false

/-- The calls that could notice that results were taken. -/
theorem Call.eq_of_takes_eq_false {call : Call} (htakes : call.takes = false)
    (hreset : call ≠ .reset) :
    (∃ trace, call = .push trace) ∨ call = .cycle ∨ ∃ limit, call = .run limit := by
  cases call with
  | push trace => exact .inl ⟨trace, rfl⟩
  | cycle => exact .inr (.inl rfl)
  | run limit => exact .inr (.inr ⟨limit, rfl⟩)
  | takeCompleted => cases htakes
  | takeVerdicts => cases htakes
  | reset => exact absurd rfl hreset

theorem Call.eq_of_takes {call : Call} (htakes : call.takes = true) :
    call = .takeCompleted ∨ call = .takeVerdicts := by
  cases call with
  | takeCompleted => exact .inl rfl
  | takeVerdicts => exact .inr rfl
  | push trace => cases htakes
  | cycle => cases htakes
  | run limit => cases htakes
  | reset => cases htakes

/-- What a call answers. -/
inductive Answer
  /-- The call failed. -/
  | failed (error : Machine.Error)
  /-- The call is done. -/
  | done
  /-- A run ended before the cycle with this number. -/
  | ended (clock : Nat)
  /-- The completed traces of all cores, core by core. -/
  | completed (traces : List (List Trace))
  /-- The verdicts of all cores, each with the number of its core. -/
  | verdicts (verdicts : List (UInt64 × Verdict))
deriving DecidableEq, Repr

/-- What a machine answers to a call. -/
def Machine.answer (call : Call) (m : Machine) : Answer :=
  match (m.call call).error? with
  | some error => .failed error
  | none =>
    match call with
    | .push _ | .cycle | .reset => .done
    | .run _ => .ended (m.call call).state.clock
    | .takeCompleted => .completed m.allCompleted
    | .takeVerdicts => .verdicts m.verdicts

namespace Answer

/-- The completed traces of a core that are handed over. -/
def completedOf (core : Nat) : Answer → List Trace
  | .completed given => given[core]?.getD []
  | .failed _ | .done | .ended _ | .verdicts _ => []

/-- The verdicts of a core that are handed over. -/
def verdictsOf (core : Nat) : Answer → List Verdict
  | .verdicts given => Drive.verdictsOf core given
  | .failed _ | .done | .ended _ | .completed _ => []

end Answer

/-- Several calls, one after the other, each with what it answers. -/
def Drive.transcript : List Call → Drive → List (Call × Answer)
  | [], _ => []
  | call :: rest, d => (call, d.machine.answer call) :: transcript rest (d.step call)

/-- Any call but one for results ends as if nothing had been taken. -/
theorem Machine.call_putBack {call : Call} (htakes : call.takes = false) (hreset : call ≠ .reset)
    (histories : Nat → Core.History) (m : Machine) :
    (m.putBack histories).call call = (m.call call).map (putBack histories) := by
  obtain ⟨trace, rfl⟩ | rfl | ⟨limit, rfl⟩ := Call.eq_of_takes_eq_false htakes hreset
  · exact push_putBack histories trace m
  · exact cycle_putBack histories m
  · exact run_putBack histories limit m

theorem Machine.answer_putBack {call : Call} (htakes : call.takes = false) (hreset : call ≠ .reset)
    (histories : Nat → Core.History) (m : Machine) :
    (m.putBack histories).answer call = m.answer call := by
  unfold answer
  rw [call_putBack htakes hreset]
  obtain ⟨trace, rfl⟩ | rfl | ⟨limit, rfl⟩ := Call.eq_of_takes_eq_false htakes hreset
  · rfl
  · rfl
  · rfl

/-- Nothing is handed over unless it is asked for. -/
theorem Machine.answer_of_takes_eq_false {call : Call} (htakes : call.takes = false)
    (hreset : call ≠ .reset) (i : Nat) (m : Machine) :
    (m.answer call).completedOf i = [] ∧ (m.answer call).verdictsOf i = [] := by
  unfold answer
  rcases (m.call call).error? with _ | error
  · obtain ⟨trace, rfl⟩ | rfl | ⟨limit, rfl⟩ := Call.eq_of_takes_eq_false htakes hreset
    · exact ⟨rfl, rfl⟩
    · exact ⟨rfl, rfl⟩
    · exact ⟨rfl, rfl⟩
  · exact ⟨rfl, rfl⟩

theorem Machine.getD_allCompleted (i : Nat) (m : Machine) :
    m.allCompleted[i]?.getD [] = m.completed i := by
  rw [allCompleted, completed, List.getElem?_map]
  rcases m.cores[i]? with _ | core
  · rfl
  · rfl

/-! ## Machines in use -/

namespace Drive

variable {c : Config} {m : Machine} {d e : Drive} {call : Call}

/-- The machine with everything put back that was taken from it. -/
def whole (d : Drive) : Machine := d.machine.putBack d.history

theorem whole_start (m : Machine) : (start m).whole = m := m.putBack_nothing

theorem numbered (hnew : Machine.new c = .ok m) (calls : List Call) :
    ((start m).after calls).machine.Numbered c.cores.toNat := by
  obtain ⟨hc, resolver, -, rfl⟩ := Machine.of_new hnew
  refine after_keeps (P := fun d => d.machine.Numbered c.cores.toNat) (fun d call h => ?_) calls
    (Machine.shaped_fresh hc resolver).numbered
  rw [machine_step]
  exact h.of_reset (Machine.reset_use (.call call) d.machine)

/-- Nothing is taken by a call that does not ask for results. -/
theorem whole_step (htakes : call.takes = false) (hreset : call ≠ .reset) (d : Drive) :
    (d.step call).whole = (d.whole.call call).state := by
  rw [whole, whole, Machine.call_putBack htakes hreset, machine_step]
  obtain ⟨trace, rfl⟩ | rfl | ⟨limit, rfl⟩ := Call.eq_of_takes_eq_false htakes hreset
  · rfl
  · rfl
  · rfl

/-- **Taking results does not change what is taken and what is left together.** -/
theorem whole_take {n : Nat} (hn : d.machine.Numbered n) (htakes : call.takes = true) :
    (d.step call).whole = d.whole := by
  obtain rfl | rfl := Call.eq_of_takes htakes
  · refine Machine.putBack_withCores fun i core hcore => ?_
    have hcompleted : ((d.step .takeCompleted).history i).completed
        = (d.history i).completed ++ core.completed :=
      congrArg (d.takenCompleted i ++ ·) (Machine.completed_eq hcore)
    rw [Core.putBack, Core.putBack, hcompleted, List.append_nil]
    rfl
  · refine Machine.putBack_withCores fun i core hcore => ?_
    have hverdicts : ((d.step .takeVerdicts).history i).verdicts
        = (d.history i).verdicts ++ core.checker.verdicts := by
      rw [← hn.verdictsOf_verdicts hcore]
      exact verdictsOf_append i d.takenVerdicts d.machine.verdicts
    rw [Core.putBack, Core.putBack, hverdicts, Checker.putBack, Checker.dropVerdicts,
      List.append_nil]
    rfl

/-- What has been taken is what was handed over. -/
theorem taken_step (hreset : call ≠ .reset) (i : Nat) (d : Drive) :
    (d.step call).takenCompleted i
      = d.takenCompleted i ++ (d.machine.answer call).completedOf i ∧
    verdictsOf i (d.step call).takenVerdicts
      = verdictsOf i d.takenVerdicts ++ (d.machine.answer call).verdictsOf i := by
  rcases htakes : call.takes with _ | _
  · obtain ⟨hcompleted, hverdicts⟩ := Machine.answer_of_takes_eq_false htakes hreset i d.machine
    rw [hcompleted, hverdicts, List.append_nil, List.append_nil]
    obtain ⟨trace, rfl⟩ | rfl | ⟨limit, rfl⟩ := Call.eq_of_takes_eq_false htakes hreset
    · exact ⟨rfl, rfl⟩
    · exact ⟨rfl, rfl⟩
    · exact ⟨rfl, rfl⟩
  · obtain rfl | rfl := Call.eq_of_takes htakes
    · exact ⟨congrArg (d.takenCompleted i ++ ·) (Machine.getD_allCompleted i d.machine).symm,
        (List.append_nil _).symm⟩
    · exact ⟨(List.append_nil _).symm, verdictsOf_append i d.takenVerdicts d.machine.verdicts⟩

theorem taken_after {calls : List Call} (hreset : Call.reset ∉ calls) (i : Nat) (d : Drive) :
    (d.after calls).takenCompleted i
      = d.takenCompleted i ++ (d.transcript calls).flatMap (·.2.completedOf i) ∧
    verdictsOf i (d.after calls).takenVerdicts
      = verdictsOf i d.takenVerdicts ++ (d.transcript calls).flatMap (·.2.verdictsOf i) := by
  induction calls generalizing d with
  | nil => exact ⟨(List.append_nil _).symm, (List.append_nil _).symm⟩
  | cons call rest ih =>
    rw [List.mem_cons, not_or] at hreset
    obtain ⟨hcompleted, hverdicts⟩ := taken_step (Ne.symm hreset.1) i d
    obtain ⟨hcompleted', hverdicts'⟩ := ih hreset.2 (d.step call)
    rw [hcompleted, List.append_assoc] at hcompleted'
    rw [hverdicts, List.append_assoc] at hverdicts'
    exact ⟨hcompleted', hverdicts'⟩

/-- What a core of the whole machine has is what was taken from it and what is left. -/
theorem results_whole {n : Nat} (hn : d.machine.Numbered n) {i : Nat} (hi : i < n) :
    ∃ core, d.whole.cores[i]? = some core ∧
      d.takenCompleted i ++ d.machine.completed i = core.completed ∧
      verdictsOf i d.takenVerdicts ++ verdictsOf i d.machine.verdicts = core.checker.verdicts := by
  rw [← hn.length] at hi
  have hcore := List.getElem?_eq_getElem hi
  refine ⟨d.machine.cores[i].putBack (d.history i), ?_, completed_eq hcore, ?_⟩
  · rw [whole, Machine.getElem?_putBack, hcore]
    rfl
  · rw [hn.verdictsOf_verdicts hcore]
    rfl

/-- A machine from which nothing is taken stays what the other one is with everything put back, and
answers the same to all other calls. -/
theorem after_whole {n : Nat} (hn : d.machine.Numbered n) (he : e.machine = d.whole)
    {calls : List Call} (hreset : Call.reset ∉ calls) :
    (e.after (calls.filter (!·.takes))).machine = (d.after calls).whole ∧
      (d.transcript calls).filter (!·.1.takes) = e.transcript (calls.filter (!·.takes)) := by
  induction calls generalizing d e with
  | nil => exact ⟨he, rfl⟩
  | cons call rest ih =>
    rw [List.mem_cons, not_or] at hreset
    obtain ⟨hcall, hrest⟩ := hreset
    have hn' : (d.step call).machine.Numbered n := by
      rw [machine_step]
      exact hn.of_reset (Machine.reset_use (.call call) d.machine)
    rcases htakes : call.takes with _ | _
    · have he' : (e.step call).machine = (d.step call).whole := by
        rw [machine_step, he, whole_step htakes (Ne.symm hcall)]
      have hanswer : e.machine.answer call = d.machine.answer call := by
        rw [he, whole, Machine.answer_putBack htakes (Ne.symm hcall)]
      obtain ⟨hafter, htranscript⟩ := ih hn' he' hrest
      rw [List.filter_cons_of_pos (by rw [htakes]; rfl)]
      refine ⟨hafter, ?_⟩
      rw [transcript, transcript, List.filter_cons_of_pos (by rw [htakes]; rfl), htranscript, hanswer]
    · have he' : e.machine = (d.step call).whole := he.trans (whole_take hn htakes).symm
      rw [List.filter_cons_of_neg (by rw [htakes]; decide), transcript,
        List.filter_cons_of_neg (by rw [htakes]; decide)]
      exact ih hn' he' hrest

/-- **No other call notices whether results are taken.**  If all calls that take results are left
out, then all others are answered the same, the machine ends up the same but for its results, and
what a core has then completed and judged is what was handed over before, in the order of the calls,
and what is left in the end. -/
theorem handover_unnoticed (hnew : Machine.new c = .ok m) {calls : List Call}
    (hreset : Call.reset ∉ calls) :
    ((start m).transcript calls).filter (!·.1.takes)
      = (start m).transcript (calls.filter (!·.takes)) ∧
    ((start m).after calls).machine.dropCompleted.dropVerdicts
      = ((start m).after (calls.filter (!·.takes))).machine.dropCompleted.dropVerdicts ∧
    ∀ i < c.cores.toNat, ∃ core,
      ((start m).after (calls.filter (!·.takes))).machine.cores[i]? = some core ∧
      ((start m).transcript calls).flatMap (·.2.completedOf i)
        ++ ((start m).after calls).machine.completed i = core.completed ∧
      ((start m).transcript calls).flatMap (·.2.verdictsOf i)
        ++ verdictsOf i ((start m).after calls).machine.verdicts = core.checker.verdicts := by
  obtain ⟨hafter, htranscript⟩ := after_whole (d := start m) (e := start m) (numbered hnew [])
    (whole_start m).symm hreset
  rw [hafter]
  refine ⟨htranscript, (Machine.drop_putBack _ _).symm, fun i hi => ?_⟩
  obtain ⟨hcompleted, hverdicts⟩ := taken_after hreset i (start m)
  have hresults := results_whole (numbered hnew calls) hi
  rwa [hcompleted, hverdicts] at hresults

/-- Results of two cores are taken while a load and a store are under way, and a trace for a third
core is refused. -/
theorem handover_unnoticed_two_cores :
    ∃ m, Machine.new { cores := 2 } = .ok m ∧
      let calls := [.push (.load 1 0xFEFFFFC8 4), .takeVerdicts,
        .push { uuid := 2, coreId := 1, kind := .store, blocks := [[⟨0x8000A820, 4⟩]] },
        .push { uuid := 3, coreId := 2, kind := .load, blocks := [[⟨0xFEFFFFC8, 4⟩]] },
        .run 17, .takeVerdicts, .takeCompleted, .cycle, .run 40, .takeCompleted]
      ((start m).transcript calls).filter (!·.1.takes)
        = (start m).transcript (calls.filter (!·.takes)) ∧
      ((start m).transcript calls).flatMap (·.2.verdictsOf 1) ≠ [] ∧
      ∃ core, ((start m).after (calls.filter (!·.takes))).machine.cores[1]? = some core ∧
        ((start m).transcript calls).flatMap (·.2.completedOf 1)
          ++ ((start m).after calls).machine.completed 1 = core.completed ∧
        ((start m).transcript calls).flatMap (·.2.verdictsOf 1)
          ++ verdictsOf 1 ((start m).after calls).machine.verdicts = core.checker.verdicts :=
  have hall := handover_unnoticed (c := { cores := 2 }) rfl (by decide)
  ⟨_, rfl, hall.1, by decide +kernel, hall.2.2 1 (by decide)⟩

end Drive

end BoundsCheck
