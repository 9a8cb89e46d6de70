import BoundsCheck.Proofs.Counting
import BoundsCheck.Proofs.Regular

/-!
# Watching the caches of a machine

No counter tells which lookups a cache has passed on.  To speak of them a machine is watched while
it is in use: the states are kept in which its cycles have begun since it was last reset, and from
such a state it can be told what each cache passes on in the cycle.

* `Machine.cache?`, `Machine.linkBelow?` — the caches of a machine and the links below them.
* `Machine.forwards` — the lookups that a cache passes on in a cycle.
* `Drive.Watched` — a machine in use that is watched.
* `Machine.Regular.cache_cycle` — what a cycle does to a cache.
* `Machine.Lasting.after` — what every cycle keeps holds as long as a machine is watched.
-/

set_option autoImplicit false

namespace BoundsCheck

open Lookup

/-! ## Caches -/

/-- Where a cache stands in a machine. -/
inductive CacheLevel
  /-- Between a core and the switch. -/
  | l1 (core : Nat)
  /-- Between the switch and the table. -/
  | l2
deriving DecidableEq, Repr

/-- The parameters of a cache. -/
def Config.cacheAt (c : Config) : CacheLevel → CacheConfig
  | .l1 _ => c.l1
  | .l2 => c.l2

/-- The lookups that a cache passes on in a cycle. -/
def RangeCache.forwards (now : Nat) (lower : Lookup.Link) (c : RangeCache) : List Request :=
  lower.requests.added (c.cycle now lower).2.requests

namespace Machine

/-- The cache that stands at a level. -/
def cache? (level : CacheLevel) (m : Machine) : Option RangeCache :=
  match level with
  | .l1 core => m.cores[core]?.map (·.l1)
  | .l2 => some m.l2

/-- The link below a cache, as the cache finds it in the next cycle.  By then the table has
answered. -/
def linkBelow? (level : CacheLevel) (m : Machine) : Option Lookup.Link :=
  match level with
  | .l1 core => m.switch.inputs[core]?
  | .l2 => some m.cycleTable.table.port

/-- The lookups that a cache passes on in the next cycle. -/
def forwards (level : CacheLevel) (m : Machine) : List Request :=
  match m.cache? level, m.linkBelow? level with
  | some cache, some lower => cache.forwards m.clock lower
  | _, _ => []

/-- A reset resets all caches. -/
theorem cache?_reset (level : CacheLevel) (m : Machine) :
    m.reset.cache? level = (m.cache? level).map RangeCache.reset := by
  cases level with
  | l1 i => simp [cache?, Machine.reset, Core.reset, Function.comp_def]
  | l2 => rfl

/-! ## The cycles of a call -/

/-- The states that at most `fuel` cycles begin in, until nothing is left to do. -/
def runBegins (fuel : Nat) (m : Machine) : List Machine :=
  if m.busy then
    match fuel with
    | 0 => []
    | fuel + 1 => m :: (if m.cycle.error?.isNone then runBegins fuel m.cycle.state else [])
  else []

/-- The states that the cycles of a call begin in. -/
def begins (call : Call) (m : Machine) : List Machine :=
  match call with
  | .cycle => [m]
  | .run limit => m.runBegins (limit - m.clock)
  | .push _ | .takeCompleted | .takeVerdicts | .reset => []

end Machine

namespace Drive

/-- A machine in use, and the states that its cycles began in since it was last reset. -/
structure Watched where
  drive : Drive
  /-- The states that cycles began in, the first one first. -/
  begun : List Machine := []

/-- A machine that is watched from the beginning. -/
def watch (m : Machine) : Watched := { drive := start m }

namespace Watched

/-- The watched machine after a call. -/
def step (w : Watched) (call : Call) : Watched where
  drive := w.drive.step call
  begun := if call = .reset then [] else w.begun ++ w.drive.machine.begins call

/-- The watched machine after several calls. -/
def after (calls : List Call) (w : Watched) : Watched := calls.foldl step w

/-- The lookups that a cache has passed on since the machine was last reset. -/
def forwarded (level : CacheLevel) (w : Watched) : List Request :=
  w.begun.flatMap (·.forwards level)

end Watched

end Drive

/-! ## What a cycle does to the servers -/

namespace Machine

variable {c : Config} {resolver : Resolver} {m : Machine}

/-- **In a cycle a cache works above the link below it**, which brings only right answers.
Otherwise nothing changes about it but its port. -/
theorem Regular.cache_cycle (h : m.Regular c resolver) (hc : c.Accepted) (hfit : c.TagsFit)
    {level : CacheLevel} {cache' : RangeCache}
    (hcache' : m.cycle.state.cache? level = some cache') :
    ∃ cache lower port, m.cache? level = some cache ∧ m.linkBelow? level = some lower ∧
      Answers c.answerFor lower ∧ cache.misses.WellFormed ∧
      cache' = { (cache.cycle m.clock lower).1 with port } := by
  have hserved := h.cycleTable
  rw [h.cycle_eq hc hfit] at hcache'
  cases level with
  | l2 =>
    cases hcache'
    exact ⟨m.l2, m.cycleTable.table.port, _, rfl, rfl, hserved.honest.links.table,
      h.balanced.misses, rfl⟩
  | l1 i =>
    obtain ⟨core', hcore', rfl⟩ := Option.map_eq_some_iff.mp hcache'
    change (((m.switched.cores.map _).map _)[i]?) = some core' at hcore'
    rw [List.getElem?_map, List.getElem?_map, Option.map_map, Option.map_eq_some_iff] at hcore'
    obtain ⟨worked, hworked, rfl⟩ := hcore'
    obtain ⟨core, lower, hcore, hlower, rfl, -⟩ :=
      cores_cycleL1s (hserved.cycleL2 hc).shaped.links hworked
    refine ⟨core.l1, lower, _, ?_, hlower, h.honest.links.inputs lower (List.mem_of_getElem? hlower),
      (h.balanced.cores i core hcore).misses, l1_exchange m.clock _⟩
    show (m.cores[i]?).map _ = _
    rw [show m.cores[i]? = some core from hcore]
    rfl

/-- In a cycle the table answers, and then the shared cache works above it. -/
theorem Regular.table_cycle (h : m.Regular c resolver) (hc : c.Accepted) (hfit : c.TagsFit) :
    m.cycle.state.table = { m.cycleTable.table with
      port := (m.l2.cycle m.clock m.cycleTable.table.port).2 } := by
  rw [h.cycle_eq hc hfit]
  rfl

/-- The machines have the same caches and the same table, in the same cycle. -/
structure SameServers (m m' : Machine) : Prop where
  caches : ∀ level, m'.cache? level = m.cache? level
  table : m'.table = m.table
  clock : m'.clock = m.clock

/-- Cores may change in any way that leaves their caches alone. -/
theorem sameServers_withCores {f : Core → Core} (hf : ∀ core, (f core).l1 = core.l1) :
    m.SameServers { m with cores := m.cores.map f } := by
  refine ⟨fun level => ?_, rfl, rfl⟩
  cases level with
  | l1 i => simp [cache?, hf, Function.comp_def]
  | l2 => rfl

theorem sameServers_push (trace : Trace) (m : Machine) :
    m.SameServers (m.push trace).state := by
  obtain ⟨core, hcore, heq⟩ | ⟨-, heq⟩ := m.push_cases trace
  · rw [heq]
    refine ⟨fun level => ?_, rfl, rfl⟩
    cases level with
    | l2 => rfl
    | l1 i =>
      by_cases hi : trace.coreId.toNat = i
      · subst hi
        have hlt := (List.getElem?_eq_some_iff.mp hcore).1
        show ((m.cores.set _ _)[_]?).map _ = (m.cores[_]?).map _
        rw [List.getElem?_set_self hlt, hcore]
        rfl
      · show ((m.cores.set _ _)[i]?).map _ = _
        rw [List.getElem?_set_ne hi]
        rfl
  · rw [heq]
    exact ⟨fun _ => rfl, rfl, rfl⟩

end Machine

/-! ## Runs and drives -/

/-- A property of the caches and the table of a machine in some cycle, and of the states that its
cycles began in, which every cycle and every reset keeps. -/
structure Machine.Lasting (c : Config) (resolver : Resolver) (P : List Machine → Machine → Prop) :
    Prop where
  /-- It concerns the caches and the table alone, and the number of the cycle. -/
  same : ∀ {begun m m'}, m.SameServers m' → P begun m → P begun m'
  /-- It holds after a cycle, which has begun in the state before. -/
  cycle : ∀ {begun m}, m.Regular c resolver → P begun m → P (begun ++ [m]) m.cycle.state
  /-- It holds after a reset, since which no cycle has begun. -/
  reset : ∀ {begun m}, P begun m → P [] m.reset

namespace Machine.Lasting

variable {c : Config} {resolver : Resolver} {P : List Machine → Machine → Prop} {m : Machine}
  {begun : List Machine}

/-- What lasts for every cycle lasts for a run. -/
theorem runFor (hP : Lasting c resolver P) (hc : c.Accepted) (hfit : c.TagsFit) (fuel : Nat)
    (hm : m.Regular c resolver) (h : P begun m) :
    P (begun ++ m.runBegins fuel) (m.runFor fuel).state := by
  induction fuel generalizing begun m with
  | zero =>
    have hnone : m.runBegins 0 = [] := by
      rw [runBegins]
      split
      · rfl
      · rfl
    rw [hnone, List.append_nil, Machine.runFor]
    split
    · exact h
    · exact h
  | succ fuel ih =>
    by_cases hbusy : m.busy = true
    · have herror : m.cycle.error? = none := by
        rw [hm.cycle_eq hc hfit]
        rfl
      have hbegins : m.runBegins (fuel + 1) = m :: m.cycle.state.runBegins fuel := by
        rw [runBegins, if_pos hbusy, herror]
        rfl
      rw [hbegins, hm.runFor_succ hc hfit hbusy, List.append_cons]
      exact ih (hm.cycle hc hfit) (hP.cycle hm h)
    · have hnone : m.runBegins (fuel + 1) = [] := by rw [runBegins, if_neg hbusy]
      rw [hnone, List.append_nil, Machine.runFor, if_neg hbusy]
      exact h

/-- It lasts for every call. -/
theorem step (hP : Lasting c resolver P) (hc : c.Accepted) (hfit : c.TagsFit)
    {w : Drive.Watched} (hm : w.drive.machine.Regular c resolver)
    (h : P w.begun w.drive.machine) (call : Call) :
    P (w.step call).begun (w.step call).drive.machine := by
  have hsame : ∀ m', w.drive.machine.SameServers m' → P (w.begun ++ []) m' := by
    intro m' hservers
    rw [List.append_nil]
    exact hP.same hservers h
  rw [Drive.Watched.step, Drive.machine_step]
  cases call with
  | push trace => exact hsame _ (sameServers_push trace _)
  | cycle => exact hP.cycle hm h
  | run limit => exact hP.runFor hc hfit _ hm h
  | takeCompleted => exact hsame w.drive.machine.dropCompleted (sameServers_withCores fun _ => rfl)
  | takeVerdicts => exact hsame w.drive.machine.dropVerdicts (sameServers_withCores fun _ => rfl)
  | reset => exact hP.reset h

/-- **What lasts holds as long as a machine is watched**, if it holds at the beginning. -/
theorem after (hP : Lasting c resolver P) (hc : c.Accepted) (hfit : c.TagsFit) (calls : List Call)
    {w : Drive.Watched} (hm : w.drive.machine.Regular c resolver)
    (h : P w.begun w.drive.machine) : P (w.after calls).begun (w.drive.after calls).machine := by
  induction calls generalizing w with
  | nil => exact h
  | cons call calls ih =>
    refine ih ?_ (hP.step hc hfit hm h call)
    show (w.drive.step call).machine.Regular c resolver
    rw [Drive.machine_step]
    exact hm.call hc hfit call

end Machine.Lasting

end BoundsCheck
