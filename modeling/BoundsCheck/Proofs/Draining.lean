import BoundsCheck.Proofs.Progress

/-!
# Draining

A busy machine gets something done in every cycle, be it only that something under way comes one
cycle nearer, and so nothing is left to do after as many cycles as there was work.  There is one
exception: a checker gets stuck on a trace without a first access.  This trace stays where it is for
ever, and so do all those behind it.

* `Machine.Regular.work_lt` — a cycle of a busy machine leaves less work, if no checker is stuck.
* `Machine.Blocked` — some checker is stuck, or is going to be.
* `Machine.Regular.blocked_cycle` — a cycle does not change this.
* `Machine.Regular.runFor_cases` — the two ways in which a run ends, told by its cycles.
* `Machine.Regular.runFor_add` — a run goes on behind the cycles in which the machine is busy.
* `Drive.drains_unless_blocked` — a machine in use drains exactly if it is not blocked.
-/

set_option autoImplicit false

namespace BoundsCheck

open Lookup

/-! ## Nothing left to do -/

/-- A cache with nothing under way above and below it has nothing left to do. -/
theorem RangeCache.not_busy {cache : RangeCache} (h : cache.misses.WellFormed)
    (hheads : cache.misses.heads = 0) (hport : cache.port.hasPending = false) :
    cache.busy = false ∧ cache.pending = 0 := by
  have hempty := h.isEmpty_of_heads hheads
  obtain ⟨-, hwaiting⟩ := MissTable.heads_eq_zero_of_isEmpty hempty
  refine ⟨?_, ?_⟩
  · rw [busy, hport, hempty]
    rfl
  · rw [pending, underway_eq_zero_of_not_hasPending hport, hwaiting, add_zero]

/-- If everything in a core is visible and nothing can be taken, then nothing is left to do.  Its
slots wait for nothing, so there is room, and yet no trace enters. -/
theorem Core.Balanced.not_busy {core : Core} (h : core.Balanced 0)
    (hcapacity : 0 < core.checker.capacity) {now : Nat} (hidle : core.Idle now)
    (hvisible : core.Visible now) : core.busy = false := by
  have hinput := hvisible.input.hasPending_eq_false hidle.input
  have houtput := hvisible.output.hasPending_eq_false hidle.output
  obtain ⟨hcache, hpending⟩ := RangeCache.not_busy h.misses h.below.symm
    (hvisible.port.hasPending_eq_false hidle.port)
  have hused : core.checker.slots.used = 0 := by
    have houtstanding := h.sound.outstanding
    rw [hpending, Multiset.map_zero, Checker.outstanding, Multiset.map_eq_zero] at houtstanding
    rw [h.sound.slots.used, houtstanding, Multiset.card_zero]
  have hroom : core.checker.hasRoom = true := by
    have hlength : core.checker.input.length = 0 := by
      rw [← Port.length_items, (Port.hasPending_eq_false_iff _).mp hinput, List.length_nil]
    rw [Checker.hasRoom, Checker.inFlight, hused, hlength]
    exact decide_eq_true hcapacity
  have hqueue : core.queue = [] := by
    have hentering := hidle.entering
    rwa [entering?, if_pos hroom, List.head?_eq_none_iff] at hentering
  rw [Core.busy, Checker.busy, SlotTable.isEmpty, hqueue, hinput, houtput, hcache, hused]
  rfl

namespace Machine

variable {c : Config} {resolver : Resolver} {m : Machine}

/-- **A machine in which everything is visible and nothing can be taken has nothing left to do.**
What anybody waits for is under way, and nothing is. -/
theorem Regular.not_busy (h : m.Regular c resolver) (hc : c.Accepted) (hidle : m.Idle)
    (hvisible : m.Visible) : m.busy = false := by
  have htable := hvisible.table.hasPending_eq_false hidle.table
  have hinputs : ∀ link ∈ m.switch.inputs, link.hasPending = false := fun link hlink =>
    (hvisible.inputs link hlink).hasPending_eq_false (hidle.inputs link hlink)
  obtain ⟨hl2, hpending⟩ := RangeCache.not_busy h.balanced.misses
    (h.balanced.below.symm.trans (underway_eq_zero_of_not_hasPending htable))
    (hvisible.l2.hasPending_eq_false hidle.l2)
  have hbelow : ∀ i, m.below i = 0 := by
    intro i
    rw [below, hpending]
    rcases hlink : m.switch.inputs[i]? with _ | link
    · rfl
    · rw [Option.elim_some,
        underway_eq_zero_of_not_hasPending (hinputs link (List.mem_of_getElem? hlink))]
      rfl
  have hcores : ∀ core ∈ m.cores, core.busy = false := by
    intro core hcore
    obtain ⟨i, hi⟩ := List.getElem?_of_mem hcore
    have hbalanced := h.balanced.cores i core hi
    rw [hbelow] at hbalanced
    refine hbalanced.not_busy ?_ (hidle.cores core hcore) (hvisible.cores core hcore)
    rw [(h.shaped.cores i core hi).capacity]
    exact Nat.pos_of_ne_zero fun hzero => hc.queueSize (by rwa [← UInt64.toNat_inj])
  rw [busy, Switch.busy, RangeTable.busy, hl2, htable, List.any_eq_false.mpr (by simpa using hcores),
    List.any_eq_false.mpr (by simpa using hinputs)]
  rfl

/-- **A cycle of a busy machine leaves less work**, if no checker gets stuck. -/
theorem Regular.work_lt (h : m.Regular c resolver) (hc : c.Accepted) (hfit : c.TagsFit)
    (hopen : m.Open) (hbusy : m.busy = true) :
    m.cycle.state.work c.span m.cycle.state.clock < m.work c.span m.clock := by
  obtain ⟨-, ⟨hvisible, hidle⟩ | hlt⟩ := (m.advances c.span).trans (h.work_cycle hc hfit hopen)
  · rw [h.not_busy hc hidle hvisible] at hbusy
    cases hbusy
  · rwa [h.clock_cycle hc hfit]

end Machine

/-! ## Checkers that get stuck -/

namespace Core

variable {core : Core} {now : Nat}

/-- The traces that have not been taken in, neither looked up nor let go. -/
def untaken (core : Core) : List Trace := core.checker.input.items ++ core.queue

theorem untaken_feed (now : Nat) (core : Core) : (core.feed now).untaken = core.untaken := by
  rcases core.feed_cases now with ⟨-, heq⟩ | ⟨trace, rest, -, hqueue, heq⟩
  · rw [heq]
  · rw [heq, untaken, untaken, Port.items_send, hqueue, List.append_assoc]
    rfl

/-- In a step a core takes in traces that have a first access, and none else. -/
theorem Stepped.untaken {c : Config} {core' : Core} (h : core.Stepped c now core') :
    ∃ gone, core.untaken = gone ++ core'.untaken ∧ ∀ trace ∈ gone, trace.firstAccess? ≠ none := by
  obtain ⟨l1, next, -, -, hmoves, -⟩ := h
  have hinput : ∃ gone, core.checker.input.items = gone ++ next.1.input.items ∧
      ∀ trace ∈ gone, trace.firstAccess? ≠ none := by
    induction hmoves with
    | refl => exact ⟨[], rfl, fun _ htrace => absurd htrace List.not_mem_nil⟩
    | tail _ hmove ih =>
      obtain ⟨gone, heq, hgone⟩ := ih
      obtain ⟨more, heq', hmore⟩ := hmove.input
      refine ⟨gone ++ more, by rw [heq, heq', List.append_assoc], fun trace htrace => ?_⟩
      exact (List.mem_append.mp htrace).elim (hgone trace) (hmore trace)
  obtain ⟨gone, heq, hgone⟩ := hinput
  refine ⟨gone, ?_, hgone⟩
  rw [exchange, untaken_feed, Core.untaken, heq, List.append_assoc]
  rfl

end Core

namespace Machine

variable {c : Config} {resolver : Resolver} {m : Machine}

/-- Some trace that has not been taken in has no first access, so that its checker is stuck on it
or is going to be. -/
def Blocked (m : Machine) : Prop :=
  ∃ core ∈ m.cores, ∃ trace ∈ core.untaken, trace.firstAccess? = none

instance (m : Machine) : Decidable m.Blocked :=
  inferInstanceAs (Decidable (∃ core ∈ m.cores, ∃ trace ∈ core.untaken, trace.firstAccess? = none))

theorem open_of_not_blocked (h : ¬ m.Blocked) : m.Open := fun core hcore trace htrace hnone =>
  h ⟨core, hcore, trace, List.mem_append_left _ htrace, hnone⟩

theorem Blocked.busy (h : m.Blocked) : m.busy = true := by
  obtain ⟨core, hcore, trace, htrace, -⟩ := h
  have hbusy : core.busy = true := by
    rcases List.mem_append.mp htrace with hinput | hqueue
    · have hpending : core.checker.input.hasPending = true := by
        rw [← Bool.not_eq_false, Port.hasPending_eq_false_iff]
        exact List.ne_nil_of_mem hinput
      simp [Core.busy, Checker.busy, hpending]
    · have hsome : core.queue.isEmpty = false :=
        List.isEmpty_eq_false_iff.mpr (List.ne_nil_of_mem hqueue)
      simp [Core.busy, hsome]
  have hany : m.cores.any (·.busy) = true := List.any_eq_true.mpr ⟨core, hcore, hbusy⟩
  rw [Machine.busy, hany]
  rfl

/-- **A blocked machine stays blocked, and no other becomes so by itself.** -/
theorem Regular.blocked_cycle (h : m.Regular c resolver) (hc : c.Accepted) (hfit : c.TagsFit) :
    m.cycle.state.Blocked ↔ m.Blocked := by
  constructor
  · rintro ⟨core', hcore', trace, htrace, hnone⟩
    obtain ⟨i, hi⟩ := List.getElem?_of_mem hcore'
    obtain ⟨core, hcore, hstepped⟩ := h.core_cycle hc hfit hi
    obtain ⟨gone, huntaken, -⟩ := hstepped.untaken
    refine ⟨core, List.mem_of_getElem? hcore, trace, ?_, hnone⟩
    rw [huntaken]
    exact List.mem_append_right gone htrace
  · rintro ⟨core, hcore, trace, htrace, hnone⟩
    obtain ⟨i, hi⟩ := List.getElem?_of_mem hcore
    have hlt : i < m.cycle.state.cores.length := by
      rw [(h.cycle hc hfit).shaped.length, ← h.shaped.length]
      exact (List.getElem?_eq_some_iff.mp hi).1
    obtain ⟨other, hother, hstepped⟩ := h.core_cycle hc hfit (List.getElem?_eq_getElem hlt)
    cases hi.symm.trans hother
    obtain ⟨gone, huntaken, hgone⟩ := hstepped.untaken
    refine ⟨_, List.getElem_mem hlt, trace, ?_, hnone⟩
    rw [huntaken, List.mem_append] at htrace
    exact htrace.resolve_left fun hmem => hgone trace hmem hnone

/-! ## Runs are cycles -/

/-- The machine after some cycles. -/
def cycles (n : Nat) (m : Machine) : Machine := (·.cycle.state)^[n] m

theorem cycles_succ (n : Nat) (m : Machine) : m.cycles (n + 1) = m.cycle.state.cycles n := rfl

theorem Regular.cycles (h : m.Regular c resolver) (hc : c.Accepted) (hfit : c.TagsFit) (n : Nat) :
    (m.cycles n).Regular c resolver := by
  induction n generalizing m with
  | zero => exact h
  | succ n ih => exact ih (h.cycle hc hfit)

theorem Regular.clock_cycles (h : m.Regular c resolver) (hc : c.Accepted) (hfit : c.TagsFit)
    (n : Nat) : (m.cycles n).clock = m.clock + n := by
  induction n generalizing m with
  | zero => rfl
  | succ n ih =>
    rw [cycles_succ, ih (h.cycle hc hfit), h.clock_cycle hc hfit, Nat.add_assoc, Nat.add_comm 1 n]

theorem runFor_of_not_busy (hbusy : m.busy = false) (fuel : Nat) : m.runFor fuel = .ok m := by
  cases fuel with
  | zero =>
    rw [runFor, hbusy]
    rfl
  | succ fuel =>
    rw [runFor, hbusy]
    rfl

/-- What holds of a busy machine and of the next cycles holds of all cycles up to there. -/
theorem forall_busy_succ {fuel : Nat} (hbusy : m.busy = true)
    (hnext : ∀ n < fuel, (m.cycle.state.cycles n).busy = true) :
    ∀ n < fuel + 1, (m.cycles n).busy = true := by
  intro n hn
  cases n with
  | zero => exact hbusy
  | succ n => exact hnext n (Nat.lt_of_succ_lt_succ hn)

/-- **A run either ends before the first cycle in which nothing is left to do, or comes to its limit
while the machine is busy.** -/
theorem Regular.runFor_cases (h : m.Regular c resolver) (hc : c.Accepted) (hfit : c.TagsFit)
    (fuel : Nat) :
    (∃ n ≤ fuel, (m.cycles n).busy = false ∧ (∀ k < n, (m.cycles k).busy = true) ∧
      m.runFor fuel = .ok (m.cycles n)) ∨
    ((∀ n < fuel + 1, (m.cycles n).busy = true) ∧
      m.runFor fuel = .fail (m.cycles fuel) (.deadlock (m.clock + fuel))) := by
  induction fuel generalizing m with
  | zero =>
    rcases hbusy : m.busy with _ | _
    · exact .inl ⟨0, Nat.le_refl 0, hbusy, fun k hk => absurd hk (Nat.not_lt_zero k),
        runFor_of_not_busy hbusy 0⟩
    · refine .inr ⟨forall_busy_succ hbusy fun n hn => absurd hn (Nat.not_lt_zero n), ?_⟩
      rw [runFor, if_pos hbusy]
      rfl
  | succ fuel ih =>
    rcases hbusy : m.busy with _ | _
    · exact .inl ⟨0, Nat.zero_le _, hbusy, fun k hk => absurd hk (Nat.not_lt_zero k),
        runFor_of_not_busy hbusy _⟩
    · rw [h.runFor_succ hc hfit hbusy]
      obtain ⟨n, hn, hdone, hbefore, hrun⟩ | ⟨hall, hrun⟩ := ih (h.cycle hc hfit)
      · exact .inl ⟨n + 1, Nat.succ_le_succ hn, hdone, forall_busy_succ hbusy hbefore, hrun⟩
      · refine .inr ⟨forall_busy_succ hbusy hall, hrun.trans ?_⟩
        rw [h.clock_cycle hc hfit, Nat.add_assoc, Nat.add_comm 1 fuel]
        rfl

/-- **A run goes on behind the cycles in which the machine is busy.** -/
theorem Regular.runFor_add (h : m.Regular c resolver) (hc : c.Accepted) (hfit : c.TagsFit)
    {n : Nat} (hbusy : ∀ k < n, (m.cycles k).busy = true) (fuel : Nat) :
    m.runFor (n + fuel) = (m.cycles n).runFor fuel := by
  induction n generalizing m with
  | zero =>
    rw [Nat.zero_add]
    rfl
  | succ n ih =>
    rw [Nat.succ_add, h.runFor_succ hc hfit (hbusy 0 (Nat.succ_pos n))]
    exact ih (h.cycle hc hfit) fun k hk => hbusy (k + 1) (Nat.succ_lt_succ hk)

/-! ## Draining -/

/-- **A machine that is not blocked drains**, be it cycle by cycle or in a run that is long
enough. -/
theorem Regular.drains (h : m.Regular c resolver) (hc : c.Accepted) (hfit : c.TagsFit)
    (hblocked : ¬ m.Blocked) :
    ∃ n, (m.cycles n).busy = false ∧ ∀ fuel, n ≤ fuel →
      (m.runFor fuel).error? = none ∧ (m.runFor fuel).state.busy = false := by
  obtain ⟨n, hdone⟩ : ∃ n, (m.cycles n).busy = false := by
    -- the induction is on the work left
    induction hwork : m.work c.span m.clock using Nat.strong_induction_on generalizing m with
    | _ work ih =>
      subst hwork
      rcases hbusy : m.busy with _ | _
      · exact ⟨0, hbusy⟩
      · have hless := h.work_lt hc hfit (open_of_not_blocked hblocked) hbusy
        have hblocked' : ¬ m.cycle.state.Blocked := by rwa [h.blocked_cycle hc hfit]
        obtain ⟨n, hdone⟩ := ih _ hless (h.cycle hc hfit) hblocked' rfl
        exact ⟨n + 1, hdone⟩
  refine ⟨n, hdone, fun fuel hfuel => ?_⟩
  obtain ⟨k, -, hdone', -, hrun⟩ | ⟨hall, -⟩ := h.runFor_cases hc hfit fuel
  · rw [hrun]
    exact ⟨rfl, hdone'⟩
  · rw [hall n (Nat.lt_succ_of_le hfuel)] at hdone
    cases hdone

/-- **A blocked machine never drains**, and all runs take too long. -/
theorem Regular.never_drains (h : m.Regular c resolver) (hc : c.Accepted) (hfit : c.TagsFit)
    (hblocked : m.Blocked) (n : Nat) :
    (m.cycles n).busy = true ∧ (m.runFor n).error? = some (.deadlock (m.clock + n)) := by
  have hbusy : ∀ k, (m.cycles k).busy = true := by
    intro k
    induction k generalizing m with
    | zero => exact hblocked.busy
    | succ k ih => exact ih (h.cycle hc hfit) ((h.blocked_cycle hc hfit).mpr hblocked)
  obtain ⟨k, -, hdone, -, -⟩ | ⟨-, hrun⟩ := h.runFor_cases hc hfit n
  · rw [hbusy k] at hdone
    cases hdone
  · rw [hrun]
    exact ⟨hbusy n, rfl⟩

end Machine

namespace Drive

variable {c : Config} {m : Machine}

theorem machine_after_cycles (n : Nat) (d : Drive) :
    (d.after (List.replicate n .cycle)).machine = d.machine.cycles n := by
  induction n generalizing d with
  | zero => rfl
  | succ n ih => exact ih (d.step .cycle)

/-- **A machine in use drains unless it is blocked**, whatever was asked of it before: if all traces
that have not been taken in have a first access, then nothing is left to do after enough cycles, and
a run that may go on long enough succeeds; and if one of them has none, then the machine is busy
after any number of cycles, and every run takes too long. -/
theorem drains_unless_blocked (hnew : Machine.new c = .ok m) (hfit : c.TagsFit)
    (calls : List Call) :
    (¬ ((start m).after calls).machine.Blocked →
      (∃ n, ((start m).after (calls ++ List.replicate n .cycle)).machine.busy = false) ∧
      ∃ bound, ∀ limit, bound ≤ limit →
        (((start m).after calls).machine.run limit).error? = none ∧
        (((start m).after calls).machine.run limit).state.busy = false) ∧
    (((start m).after calls).machine.Blocked →
      (∀ n, ((start m).after (calls ++ List.replicate n .cycle)).machine.busy = true) ∧
      ∀ limit, (((start m).after calls).machine.run limit).error?
        = some (.deadlock (max ((start m).after calls).machine.clock limit))) := by
  obtain ⟨hc, resolver, hresolver, -⟩ := Machine.of_new hnew
  have hregular := Drive.regular hnew hresolver hfit calls
  have hcycles : ∀ n, ((start m).after (calls ++ List.replicate n .cycle)).machine
      = ((start m).after calls).machine.cycles n := by
    intro n
    rw [after, List.foldl_append]
    exact machine_after_cycles n _
  simp only [hcycles]
  generalize ((start m).after calls).machine = d at hregular
  refine ⟨fun hblocked => ?_, fun hblocked => ⟨fun n => ?_, fun limit => ?_⟩⟩
  · obtain ⟨n, hdone, hrun⟩ := hregular.drains hc hfit hblocked
    exact ⟨⟨n, hdone⟩, d.clock + n, fun limit hlimit => hrun _ (by omega)⟩
  · exact (hregular.never_drains hc hfit hblocked n).1
  · have hmax : d.clock + (limit - d.clock) = max d.clock limit := by omega
    rw [← hmax]
    exact (hregular.never_drains hc hfit hblocked _).2

/-- A load and a store of two cores are done after some cycles, but a fence without an access
blocks its core for ever. -/
theorem drains_unless_blocked_two_cores :
    ∃ m, Machine.new { cores := 2, switch := { policy := .priority } } = .ok m ∧
      (∃ n, ((start m).after ([.push (.load 1 0xFEFFFFC8 4),
        .push { uuid := 2, coreId := 1, kind := .store, blocks := [[⟨0x8000A820, 4⟩]] },
        .cycle, .cycle] ++ List.replicate n .cycle)).machine.busy = false) ∧
      ∀ n, ((start m).after ([.push (.load 1 0xFEFFFFC8 4),
        .push { uuid := 2, coreId := 1, kind := .fence },
        .run 100] ++ List.replicate n .cycle)).machine.busy = true :=
  have hfit : Config.TagsFit { cores := 2, switch := { policy := .priority } } := by decide
  ⟨_, rfl, ((drains_unless_blocked rfl hfit _).1 (by decide +kernel)).1,
    ((drains_unless_blocked rfl hfit _).2 (by decide +kernel)).1⟩

end Drive

end BoundsCheck
