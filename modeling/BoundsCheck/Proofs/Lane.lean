import BoundsCheck.Proofs.Course
import BoundsCheck.Proofs.Draining

/-!
# A core alone

As long as nothing is left to do for any other core, a machine is no more than one core with all that
is below it: its link above the switch, the shared cache and the table.  The arbiter finds nothing on
the other links, no answer belongs to them, and their cores have nothing to work on, so a cycle
leaves all of them as they are.

* `Lane` — one core with all that is below it.
* `Lane.cycle` — what a cycle does to it.
* `Machine.Alone` — a machine that is a lane and otherwise at rest.
* `Machine.Alone.cycle` — it stays so, and its lane makes a cycle.
* `Lane.LeadsTo`, `Machine.Alone.run` — what a lane comes to, and a run of the machine with it.
-/

set_option autoImplicit false

namespace BoundsCheck

open Lookup

/-! ## Lanes -/

/-- A core with all that is below it. -/
structure Lane where
  core : Core
  /-- Its link above the switch. -/
  link : Lookup.Link
  l2 : RangeCache
  table : RangeTable

namespace Lane

/-- Something is left to do. -/
def busy (l : Lane) : Bool := l.core.busy || l.link.hasPending || l.l2.busy || l.table.busy

/-- The table answers. -/
def cycleTable (now : Nat) (l : Lane) : Lane := { l with table := l.table.cycle now }

/-- The shared cache works above the table. -/
def cycleL2 (now : Nat) (l : Lane) : Lane :=
  { l with
    l2 := (l.l2.cycle now l.table.port).1
    table.port := (l.l2.cycle now l.table.port).2 }

/-- The cache of the core works above the switch. -/
def cycleL1 (now : Nat) (l : Lane) : Lane :=
  { l with
    core := (l.core.cycleCache now l.link).1
    link := (l.core.cycleCache now l.link).2 }

/-- The switch passes everything through. -/
def passThrough (l : Lane) : Lane :=
  { l with
    link := ⟨{}, (l.l2.port.responses.moveInto l.link.responses).2⟩
    l2.port := ⟨(l.link.requests.moveInto l.l2.port.requests).2, {}⟩ }

/-- The switch delivers an answer, if one is visible. -/
def deliver (shift now : Nat) (l : Lane) : Lane :=
  match l.l2.port.responses.pop? now with
  | none => l
  | some (packet, rest) =>
    { l with
      link := l.link.respond { packet.item with tag := TagPacking.unstamp shift packet.item.tag }
        1 now
      l2.port.responses := rest }

/-- The switch passes a question on, if one is visible. -/
def grant (shift input delay now : Nat) (l : Lane) : Lane :=
  match l.link.requests.pop? now with
  | none => l
  | some (packet, rest) =>
    { l with
      link.requests := rest
      l2.port := l.l2.port.request (Switch.stamped shift (input, packet.item)) delay now }

/-- The switch works between the core with the given number and the shared cache. -/
def relay (c : Config) (k now : Nat) (l : Lane) : Lane :=
  if c.cores.toNat = 1 then l.passThrough
  else (l.deliver (TagPacking.tagShift c.cores.toNat) now).grant
    (TagPacking.tagShift c.cores.toNat) k c.switch.delay.toNat now

/-- The checker works above the cache of the core. -/
def check (now : Nat) (l : Lane) : Lane :=
  { l with core := l.core.checked (l.core.checker.cycle now l.core.l1.port).state }

/-- Traces are taken from the checker and given to it. -/
def exchange (now : Nat) (l : Lane) : Lane := { l with core := l.core.exchange now }

/-- One cycle. -/
def cycle (c : Config) (k now : Nat) (l : Lane) : Lane :=
  (((((l.cycleTable now).cycleL2 now).cycleL1 now).relay c k now).check now).exchange now

end Lane

/-! ## At rest -/

theorem Port.eq_empty {α : Type} {p : Port α} (h : p.hasPending = false) : p = {} := by
  obtain ⟨_ | ⟨packet, packets⟩⟩ := p
  · rfl
  · cases h

theorem Link.eq_empty {α β : Type} {l : Link α β} (h : l.hasPending = false) : l = {} := by
  rw [hasPending, Bool.or_eq_false_iff] at h
  obtain ⟨requests, responses⟩ := l
  exact congrArg₂ Link.mk (Port.eq_empty h.1) (Port.eq_empty h.2)

/-- A cache with nothing under way above it and nobody waiting. -/
structure RangeCache.AtRest (c : RangeCache) : Prop where
  port : c.port = {}
  misses : c.misses = {}

/-- A core with no trace anywhere. -/
structure Core.AtRest (core : Core) : Prop where
  queue : core.queue = []
  input : core.checker.input = {}
  output : core.checker.output = {}
  slots : core.checker.slots.isEmpty = true
  l1 : core.l1.AtRest

theorem RangeCache.atRest {c : RangeCache} (h : c.busy = false) : c.AtRest := by
  rw [busy, Bool.or_eq_false_iff, Bool.not_eq_false', MissTable.isEmpty, List.isEmpty_iff] at h
  exact ⟨Link.eq_empty h.1, congrArg MissTable.mk h.2⟩

theorem Core.atRest {core : Core} (h : core.busy = false) : core.AtRest := by
  rw [busy, Checker.busy, Bool.or_eq_false_iff, Bool.or_eq_false_iff, Bool.or_eq_false_iff,
    Bool.or_eq_false_iff, Bool.not_eq_false', Bool.not_eq_false', List.isEmpty_iff] at h
  obtain ⟨⟨⟨hqueue, hinput, hslots⟩, houtput⟩, hl1⟩ := h
  exact ⟨hqueue, Port.eq_empty hinput, Port.eq_empty houtput, hslots, RangeCache.atRest hl1⟩

/-- Nothing is left to do in any part of a machine. -/
structure Machine.AtRest (m : Machine) : Prop where
  cores : ∀ core ∈ m.cores, core.AtRest
  inputs : ∀ link ∈ m.switch.inputs, link = {}
  l2 : m.l2.AtRest
  table : m.table.port = {}

theorem Machine.atRest {m : Machine} (h : m.busy = false) : m.AtRest := by
  rw [busy, Switch.busy, Bool.or_eq_false_iff, Bool.or_eq_false_iff, Bool.or_eq_false_iff,
    List.any_eq_false, List.any_eq_false] at h
  obtain ⟨⟨⟨hcores, hinputs⟩, hl2⟩, htable⟩ := h
  exact ⟨fun core hcore => Core.atRest (by simpa using hcores core hcore),
    fun link hlink => Link.eq_empty (by simpa using hinputs link hlink), RangeCache.atRest hl2,
    Link.eq_empty htable⟩

theorem RangeCache.AtRest.countWaiting {c : RangeCache} (h : c.AtRest) : c.countWaiting = c := by
  obtain ⟨name, id, config, lines, misses, port, stats⟩ := c
  have hmisses : misses = {} := h.misses
  subst hmisses
  rfl

/-- A cache at rest stays as it is. -/
theorem RangeCache.AtRest.cycle {c : RangeCache} (h : c.AtRest) {lower : Lookup.Link} {now : Nat}
    (hresponses : lower.responses.pop? now = none) : c.cycle now lower = (c, lower) := by
  have hrequests : c.port.requests.pop? now = none := by
    rw [h.port]
    rfl
  rw [cycle_of_idle hresponses hrequests, h.countWaiting]

namespace Core

variable {core : Core} (now : Nat)

theorem AtRest.busy {core : Core} (h : core.AtRest) : core.busy = false := by
  rw [Core.busy, Checker.busy, RangeCache.busy, h.queue, h.input, h.output, h.slots, h.l1.port,
    h.l1.misses]
  rfl

/-- A core at rest stays as it is. -/
theorem AtRest.cycleCache (h : core.AtRest) : core.cycleCache now {} = (core, {}) := by
  rw [Core.cycleCache, h.l1.cycle rfl]

theorem AtRest.cycle_checker (h : core.AtRest) :
    core.checker.cycle now core.l1.port = .ok (core.checker, core.l1.port) := by
  have hinput : core.checker.input.pop? now = none := by
    rw [h.input]
    rfl
  have hresponses : core.l1.port.responses.pop? now = none := by
    rw [h.l1.port]
    rfl
  exact Checker.cycle_of_idle hresponses hinput

theorem AtRest.checked (h : core.AtRest) :
    core.checked (core.checker.cycle now core.l1.port).state = core := by
  rw [h.cycle_checker]
  rfl

theorem AtRest.exchange (h : core.AtRest) : core.exchange now = core := by
  have hcollect : core.collect now = core := by
    have houtput : core.checker.output.drain now = ([], core.checker.output) := by
      rw [h.output]
      rfl
    rw [Core.collect, leaving, houtput, List.map_nil, List.append_nil]
  rcases core.feed_cases now with ⟨-, heq⟩ | ⟨trace, rest, -, hqueue, -⟩
  · rw [Core.exchange, hcollect, heq]
  · rw [h.queue] at hqueue
    cases hqueue

/-- A core at rest has its traces in front of it once it is given some. -/
theorem AtRest.carries {c : Config} {resolver : Resolver} {k : Nat} (h : core.AtRest)
    (hshaped : core.Shaped c resolver k) (hsound : core.checker.Sound core.l1.pending)
    (hknows : core.l1.Knows c.answerFor) (traces : List Trace) :
    ({ core with queue := core.queue ++ traces } : Core).Carries c resolver k core.checker.verdicts
      { queue := traces, held := core.l1.lines.contains } := by
  refine ⟨⟨hshaped.id, hshaped.config, hshaped.resolve, hshaped.capacity, hshaped.l1⟩, hsound,
    hknows, ?_, ?_, ?_, ?_, ?_, fun _ hmiss => absurd hmiss (Option.not_mem_none _), ?_, ?_,
    fun _ => rfl, (List.append_nil _).symm⟩
  · show Answers c.answerFor core.l1.port
    rw [h.l1.port]
    exact answers_default
  · show core.queue ++ traces = traces
    rw [h.queue, List.nil_append]
  · show core.checker.input.Bears some 1 []
    rw [h.input]
    exact Port.bears_default
  · show core.l1.port.requests.Bears core.checker.asker? 1 []
    rw [h.l1.port]
    exact Port.bears_default
  · show core.l1.misses.misses = []
    rw [h.l1.misses]
  · show core.l1.port.responses.Bears (fun rsp => core.checker.asker? rsp.question) _ []
    rw [h.l1.port]
    exact Port.bears_default
  · show core.checker.output.Bears some 1 []
    rw [h.output]
    exact Port.bears_default

end Core

/-! ## Switches with a single input -/

namespace Switch

variable {s : Switch} {now : Nat} {lower : Lookup.Link}

theorem mode_route (now : Nat) (lower : Lookup.Link) (s : Switch) :
    (s.route now lower).state.1.mode = s.mode := by
  rw [route]
  split
  · rfl
  · rw [deliver]
    split
    · rfl
    · rfl

theorem isBypass_grant (h : s.isBypass = false) (now : Nat) (arbiter : Arbiter)
    (lower : Lookup.Link) : (s.grant now arbiter lower).state.1.isBypass = false := by
  rw [grant]
  split
  · exact h
  · rw [forward]
    split
    · rfl
    · split
      · rfl
      · dsimp only
        split
        · rfl
        · rfl

theorem mode_passThrough (lower : Lookup.Link) (s : Switch) :
    (s.passThrough lower).1.mode = s.mode := by
  rw [passThrough]
  split
  · rfl
  · rfl

/-- A switch passes everything through or never does. -/
theorem isBypass_cycle (now : Nat) (lower : Lookup.Link) (s : Switch) :
    (s.cycle now lower).state.1.isBypass = s.isBypass := by
  rcases hmode : s.mode with _ | arbiter
  · have hcycle : s.cycle now lower = .ok (s.passThrough lower) := by rw [cycle, hmode]
    rw [hcycle, isBypass, isBypass, Outcome.state_ok, mode_passThrough]
  · have hcycle : s.cycle now lower
        = (s.route now lower).andThen fun next => next.1.grant now arbiter next.2 := by
      rw [cycle, hmode]
    have hnot : s.isBypass = false := by
      rw [isBypass, hmode]
      rfl
    have hroute : (s.route now lower).state.1.isBypass = false := by
      rw [isBypass, mode_route]
      exact hnot
    rw [hcycle, hnot]
    exact Outcome.andThen_keeps (P := fun next : Switch × Lookup.Link => next.1.isBypass = false)
      hroute fun next hnext => isBypass_grant hnext now arbiter next.2

end Switch

/-- A machine has a switch that passes everything through exactly if it has a single core. -/
def Machine.BypassIfSingle (c : Config) (m : Machine) : Prop :=
  m.switch.isBypass = decide (c.cores.toNat = 1)

theorem Machine.BypassIfSingle.cycle {c : Config} {m : Machine} (h : m.BypassIfSingle c) :
    m.cycle.state.BypassIfSingle c := by
  refine Outcome.andThen_keeps (Outcome.andThen_keeps ?_ fun _ h => h) fun _ h => h
  exact (Switch.isBypass_cycle _ _ _).trans h

/-- Nothing that is asked of a machine changes this. -/
theorem Drive.bypassIfSingle {c : Config} {m : Machine} (hnew : Machine.new c = .ok m)
    (calls : List Call) : ((start m).after calls).machine.BypassIfSingle c := by
  obtain ⟨-, resolver, -, rfl⟩ := Machine.of_new hnew
  refine after_keeps (P := fun d => d.machine.BypassIfSingle c) (fun d call h => ?_) calls ?_
  · rw [machine_step]
    cases call with
    | push trace =>
      obtain ⟨core, -, heq⟩ | ⟨-, heq⟩ := d.machine.push_cases trace
      · rw [Machine.call, heq]
        exact h
      · rw [Machine.call, heq]
        exact h
    | cycle => exact h.cycle
    | run limit => exact Machine.run_keeps (fun _ hm => hm.cycle) limit d.machine h
    | takeCompleted => exact h
    | takeVerdicts => exact h
    | reset =>
      have hreset : (Switch.resetMode d.machine.switch.mode == .bypass)
          = (d.machine.switch.mode == .bypass) := by
        rcases d.machine.switch.mode with _ | arbiter
        · rfl
        · rfl
      exact hreset.trans h
  · show (Switch.modeFor c.switch.policy c.cores.toNat == .bypass) = _
    rw [Switch.modeFor]
    by_cases hone : c.cores.toNat = 1
    · rw [if_pos hone, decide_eq_true hone]
      rfl
    · rw [if_neg hone, decide_eq_false hone]
      rfl

/-! ## A machine with a single core at work -/

namespace Machine

/-- The machine is the lane, and for all other cores it is as before. -/
structure Alone (before : Machine) (k : Nat) (l : Lane) (m : Machine) : Prop where
  core : m.cores[k]? = some l.core
  link : m.switch.inputs[k]? = some l.link
  l2 : m.l2 = l.l2
  table : m.table = l.table
  cores : ∀ i ≠ k, m.cores[i]? = before.cores[i]?
  links : ∀ i ≠ k, m.switch.inputs[i]? = before.switch.inputs[i]?

/-- Nothing is left to do for any other core than the one with the given number. -/
structure OthersAtRest (k : Nat) (m : Machine) : Prop where
  cores : ∀ i ≠ k, ∀ core, m.cores[i]? = some core → core.AtRest
  links : ∀ i ≠ k, ∀ link, m.switch.inputs[i]? = some link → link = {}

variable {c : Config} {resolver : Resolver} {before m : Machine} {k : Nat} {l : Lane}

theorem othersAtRest (h : m.busy = false) (k : Nat) : m.OthersAtRest k :=
  ⟨fun _ _ core hcore => (atRest h).cores core (List.mem_of_getElem? hcore),
    fun _ _ link hlink => (atRest h).inputs link (List.mem_of_getElem? hlink)⟩

/-- The other cores stay at rest while they do not change. -/
theorem Alone.othersAtRest (h : Alone before k l m) (hrest : before.OthersAtRest k) :
    m.OthersAtRest k :=
  ⟨fun i hi core hcore => hrest.cores i hi core (h.cores i hi ▸ hcore),
    fun i hi link hlink => hrest.links i hi link (h.links i hi ▸ hlink)⟩

/-- What holds of a single place of a list, if it does not hold of the others. -/
theorem any_eq_of_single {α : Type} {as : List α} {p : α → Bool} {a : α} (h : as[k]? = some a)
    (hothers : ∀ i ≠ k, ∀ b, as[i]? = some b → p b = false) : as.any p = p a := by
  rw [Bool.eq_iff_iff, List.any_eq_true]
  refine ⟨fun ⟨b, hb, hp⟩ => ?_, fun hp => ⟨a, List.mem_of_getElem? h, hp⟩⟩
  obtain ⟨i, hi⟩ := List.getElem?_of_mem hb
  by_cases hik : i = k
  · subst hik
    rw [h] at hi
    cases hi
    exact hp
  · rw [hothers i hik b hi] at hp
    cases hp

/-- The machine is busy exactly if its lane is. -/
theorem Alone.busy (h : Alone before k l m) (hrest : before.OthersAtRest k) : m.busy = l.busy := by
  have hothers := h.othersAtRest hrest
  have hcores : m.cores.any (·.busy) = l.core.busy :=
    any_eq_of_single h.core fun i hi core hcore => (hothers.cores i hi core hcore).busy
  have hlinks : m.switch.inputs.any (·.hasPending) = l.link.hasPending :=
    any_eq_of_single h.link fun i hi link hlink => by
      rw [hothers.links i hi link hlink]
      rfl
  rw [Machine.busy, Switch.busy, hcores, hlinks, h.l2, h.table, Lane.busy, RangeTable.busy]

theorem Alone.cycleTable (h : Alone before k l m) :
    Alone before k (l.cycleTable m.clock) m.cycleTable :=
  ⟨h.core, h.link, h.l2, congrArg (·.cycle m.clock) h.table, h.cores, h.links⟩

theorem Alone.cycleL2 (h : Alone before k l m) : Alone before k (l.cycleL2 m.clock) m.cycleL2 := by
  refine ⟨h.core, h.link, ?_, ?_, h.cores, h.links⟩
  · simp only [Machine.cycleL2, Lane.cycleL2, h.l2, h.table]
  · simp only [Machine.cycleL2, Lane.cycleL2, h.l2, h.table]

/-- The caches of the other cores have nothing to do. -/
theorem Alone.cycleL1s (h : Alone before k l m) (hrest : before.OthersAtRest k)
    (hlinks : m.cores.length = m.switch.inputs.length) :
    Alone before k (l.cycleL1 m.clock) m.cycleL1s := by
  have hothers := h.othersAtRest hrest
  have hsame : ∀ i ≠ k, ∀ core link, m.cores[i]? = some core → m.switch.inputs[i]? = some link →
      core.cycleCache m.clock link = (core, link) := by
    intro i hi core link hcore hlink
    rw [hothers.links i hi link hlink]
    exact (hothers.cores i hi core hcore).cycleCache m.clock
  rw [Machine.cycleL1s, Core.cycleCaches_eq m.clock hlinks]
  refine ⟨List.getElem?_zipWith_eq_some.mpr ⟨_, _, h.core, h.link, rfl⟩,
    List.getElem?_zipWith_eq_some.mpr ⟨_, _, h.core, h.link, rfl⟩, h.l2, h.table,
    fun i hi => ?_, fun i hi => ?_⟩
  · rw [← h.cores i hi, List.getElem?_zipWith]
    rcases hcore : m.cores[i]? with _ | core
    · rfl
    · have hlt := (List.getElem?_eq_some_iff.mp hcore).1
      rw [hlinks] at hlt
      have hlink := List.getElem?_eq_getElem hlt
      rw [hlink]
      simp only [hsame i hi core _ hcore hlink]
  · rw [← h.links i hi, List.getElem?_zipWith]
    rcases hlink : m.switch.inputs[i]? with _ | link
    · rcases m.cores[i]? with _ | core
      · rfl
      · rfl
    · have hlt := (List.getElem?_eq_some_iff.mp hlink).1
      rw [← hlinks] at hlt
      have hcore := List.getElem?_eq_getElem hlt
      rw [hcore]
      simp only [hsame i hi _ link hcore hlink]

/-! ### The switch -/

/-- Nothing in the shared cache belongs to a core at rest. -/
theorem Regular.inputOf_eq (h : m.Regular c resolver) (hrest : m.OthersAtRest k) {req : Request}
    (hreq : req ∈ m.l2.pending) : TagPacking.inputOf m.switch.shift req.tag = k := by
  have hlt := h.balanced.routed req hreq
  by_contra hne
  have hcore := List.getElem?_eq_getElem hlt
  have hbelow := (h.balanced.cores _ _ hcore).below
  rw [(hrest.cores _ hne _ hcore).l1.misses] at hbelow
  have hmem : { req with tag := TagPacking.unstamp m.switch.shift req.tag }
      ∈ m.below (TagPacking.inputOf m.switch.shift req.tag) :=
    Multiset.mem_add.mpr (.inr (Multiset.mem_map_of_mem _ (Multiset.mem_filter.mpr ⟨hreq, rfl⟩)))
  rw [hbelow] at hmem
  exact Multiset.notMem_zero _ hmem

/-- The machine with other things under way above and below its switch. -/
def switchedTo (next : Switch × Lookup.Link) (m : Machine) : Machine :=
  { m with switch := next.1, l2.port := next.2 }

theorem Alone.passThrough (h : Alone before k l m) (hone : m.switch.inputs.length = 1) :
    Alone before k l.passThrough (m.switchedTo (m.switch.passThrough m.l2.port)) := by
  have hinputs : m.switch.inputs = [l.link] := by
    obtain ⟨link, hlink⟩ := List.length_eq_one_iff.mp hone
    have hk := h.link
    rw [hlink, List.getElem?_singleton] at hk
    split at hk
    · rw [hlink, Option.some.inj hk]
    · cases hk
  have hk : k = 0 := by
    have hk := (List.getElem?_eq_some_iff.mp h.link).1
    omega
  subst hk
  rw [Switch.passThrough, hinputs]
  refine ⟨h.core, ?_, ?_, h.table, h.cores, fun i hi => ?_⟩
  · rw [switchedTo, h.l2]
    rfl
  · rw [switchedTo, h.l2]
    rfl
  · rw [← h.links i hi, hinputs]
    obtain ⟨i, rfl⟩ := Nat.exists_eq_succ_of_ne_zero hi
    rfl

/-- What the shared cache answers is delivered to the core at work. -/
theorem Alone.route (h : Alone before k l m) (hrest : before.OthersAtRest k)
    (hregular : m.Regular c resolver) (hfit : c.TagsFit) :
    ∃ next, m.switch.route m.clock m.l2.port = .ok next ∧ next.1.shift = m.switch.shift ∧
      next.1.delay = m.switch.delay ∧ next.1.inputs.length = m.switch.inputs.length ∧
      next.1.Stampable ∧
      Alone before k (l.deliver m.switch.shift m.clock) (m.switchedTo next) := by
  have hstampable := hregular.stampable hfit
  rcases Switch.route_cases hregular.deliverable m.clock with
    ⟨hnone, heq⟩ | ⟨packet, rest, link, hpop, hlink, heq⟩
  · refine ⟨_, heq, rfl, rfl, rfl, hstampable, ?_⟩
    rw [h.l2] at hnone
    rw [Lane.deliver, hnone]
    exact h
  · have hpending : packet.item.question ∈ m.l2.pending :=
      Multiset.mem_add.mpr (.inl (mem_underway_of_pop?_responses hpop))
    have hinput : TagPacking.inputOf m.switch.shift packet.item.tag = k :=
      hregular.inputOf_eq (h.othersAtRest hrest) hpending
    refine ⟨_, heq, rfl, rfl, List.length_set,
      hstampable.of_set rfl rfl (hstampable link (List.mem_of_getElem? hlink)), ?_⟩
    rw [hinput, h.link] at hlink
    cases hlink
    have hlt := (List.getElem?_eq_some_iff.mp h.link).1
    rw [h.l2] at hpop
    rw [Lane.deliver, hpop]
    refine ⟨h.core, ?_, ?_, h.table, h.cores, fun i hi => ?_⟩
    · show (m.switch.inputs.set (TagPacking.inputOf m.switch.shift packet.item.tag) _)[k]? = _
      rw [hinput, List.getElem?_set_self hlt]
    · rw [switchedTo, h.l2]
    · show (m.switch.inputs.set (TagPacking.inputOf m.switch.shift packet.item.tag) _)[i]? = _
      rw [hinput, List.getElem?_set_ne (Ne.symm hi)]
      exact h.links i hi

/-- The arbiter finds no questions but those of the core at work. -/
theorem Alone.grant (h : Alone before k l m) (hrest : before.OthersAtRest k)
    (hshift : m.switch.shift ≤ 32) (hstampable : m.switch.Stampable) {arbiter : Arbiter}
    (harbiter : arbiter.inputs = m.switch.inputs.length) :
    ∃ next, m.switch.grant m.clock arbiter m.l2.port = .ok next ∧
      Alone before k (l.grant m.switch.shift k m.switch.delay.toNat m.clock)
        (m.switchedTo next) := by
  rcases Switch.grant_cases hshift hstampable harbiter m.clock m.l2.port with
    ⟨hnone, heq⟩ | ⟨input, link, packet, rest, arbiter', hlink, hpop, -, heq⟩
  · refine ⟨_, heq, ?_⟩
    rw [Lane.grant, hnone l.link (List.mem_of_getElem? h.link)]
    exact h
  · have hinput : input = k := by
      by_contra hne
      rw [(h.othersAtRest hrest).links input hne link hlink] at hpop
      cases hpop
    subst hinput
    rw [h.link] at hlink
    cases hlink
    have hlt := (List.getElem?_eq_some_iff.mp h.link).1
    refine ⟨_, heq, ?_⟩
    rw [Lane.grant, hpop]
    refine ⟨h.core, ?_, ?_, h.table, h.cores, fun i hi => ?_⟩
    · show (m.switch.inputs.set input _)[input]? = _
      rw [List.getElem?_set_self hlt]
    · rw [switchedTo, h.l2]
    · show (m.switch.inputs.set input _)[i]? = _
      rw [List.getElem?_set_ne (Ne.symm hi)]
      exact h.links i hi

/-- **The switch works for the core at work alone.** -/
theorem Alone.cycleSwitch (h : Alone before k l m) (hrest : before.OthersAtRest k)
    (hregular : m.Regular c resolver) (hfit : c.TagsFit) (hmode : m.BypassIfSingle c) :
    Alone before k (l.relay c k m.clock) m.cycleSwitch.state := by
  have hstate : m.cycleSwitch.state
      = m.switchedTo (m.switch.cycle m.clock m.l2.port).state := rfl
  rw [BypassIfSingle, Switch.isBypass] at hmode
  rw [hstate]
  have hshape := hregular.shaped.switch
  by_cases hone : c.cores.toNat = 1
  · rw [decide_eq_true hone, beq_iff_eq] at hmode
    rw [Switch.cycle, hmode, Lane.relay, if_pos hone]
    exact h.passThrough (hshape.links.trans hone)
  · rw [decide_eq_false hone, beq_eq_false_iff_ne] at hmode
    obtain ⟨hmode', -⟩ | ⟨arbiter, harbitrated, harbiter⟩ := hshape.mode
    · exact absurd hmode' hmode
    · obtain ⟨first, heq, hshift, hdelay, hlength, hstampable, hfirst⟩ :=
        h.route hrest hregular hfit
      have hle : (m.switchedTo first).switch.shift ≤ 32 := by
        show first.1.shift ≤ 32
        rw [hshift]
        exact Nat.le_of_lt hshape.shift_lt
      obtain ⟨second, heq', hsecond⟩ := hfirst.grant hrest hle hstampable
        (harbiter.trans (hshape.links.symm.trans hlength.symm))
      rw [Switch.cycle_of_route harbitrated heq]
      change first.1.grant m.clock arbiter first.2 = .ok second at heq'
      rw [heq', Lane.relay, if_neg hone, ← hshape.shift, ← hregular.shaped.delay, ← hdelay,
        ← hshift]
      rw [← hshift] at hsecond
      exact hsecond

/-! ### The rest of a cycle -/

theorem getElem?_map_of_atRest {i : Nat} {f : Core → Core} {cores : List Core}
    (h : ∀ core, cores[i]? = some core → f core = core) : (cores.map f)[i]? = cores[i]? := by
  rw [List.getElem?_map]
  rcases hcore : cores[i]? with _ | core
  · rfl
  · rw [Option.map_some, h core hcore]

/-- The checkers of the other cores have nothing to do. -/
theorem Alone.check (h : Alone before k l m) (hrest : before.OthersAtRest k) (now : Nat) :
    Alone before k (l.check now) { m with
      cores := m.cores.map fun core =>
        core.checked (core.checker.cycle now core.l1.port).state } := by
  have hothers := h.othersAtRest hrest
  refine ⟨?_, h.link, h.l2, h.table, fun i hi => ?_, h.links⟩
  · rw [List.getElem?_map, h.core]
    rfl
  · rw [← h.cores i hi]
    exact getElem?_map_of_atRest fun core hcore => (hothers.cores i hi core hcore).checked now

theorem Alone.exchange (h : Alone before k l m) (hrest : before.OthersAtRest k) :
    Alone before k (l.exchange m.clock) m.exchange := by
  have hothers := h.othersAtRest hrest
  refine ⟨?_, h.link, h.l2, h.table, fun i hi => ?_, h.links⟩
  · show (m.cores.map _)[k]? = _
    rw [List.getElem?_map, h.core]
    rfl
  · rw [← h.cores i hi]
    exact getElem?_map_of_atRest fun core hcore =>
      (hothers.cores i hi core hcore).exchange m.clock

/-- **While the other cores are at rest, a machine makes the cycle of its lane**, and they stay at
rest. -/
theorem Alone.cycle (h : Alone before k l m) (hrest : before.OthersAtRest k) (hc : c.Accepted)
    (hfit : c.TagsFit) (hregular : m.Regular c resolver) (hmode : m.BypassIfSingle c) :
    Alone before k (l.cycle c k m.clock) m.cycle.state := by
  have hworked := (hregular.cycleTable.cycleL2 hc).shaped.links
  have hlooked :
      Alone before k (((l.cycleTable m.clock).cycleL2 m.clock).cycleL1 m.clock) m.looked :=
    h.cycleTable.cycleL2.cycleL1s hrest hworked
  have hswitched := hlooked.cycleSwitch hrest (hregular.looked hc) hfit hmode
  have hjudged : Alone before k _ m.judged := hswitched.check hrest m.clock
  have hexchanged := hjudged.exchange hrest
  rw [hregular.cycle_eq hc hfit]
  exact ⟨hexchanged.core, hexchanged.link, hexchanged.l2, hexchanged.table, hexchanged.cores,
    hexchanged.links⟩

end Machine

/-! ## What a lane comes to -/

namespace Lane

/-- In a busy cycle a lane makes a cycle. -/
def Step (c : Config) (k : Nat) (s t : Nat × Lane) : Prop :=
  s.2.busy = true ∧ t = (s.1 + 1, s.2.cycle c k s.1)

/-- Cycles are counted. -/
theorem le_of_steps {c : Config} {k : Nat} {s t : Nat × Lane}
    (h : Relation.ReflTransGen (Step c k) s t) : s.1 ≤ t.1 := by
  induction h with
  | refl => exact Nat.le_refl _
  | tail _ hstep ih =>
    rw [hstep.2]
    exact Nat.le_succ_of_le ih

/-- Whenever a lane is as the first predicate says, some busy cycles later it is as the second one
does. -/
def LeadsTo (c : Config) (k : Nat) (P Q : Nat → Lane → Prop) : Prop :=
  ∀ now l, P now l → ∃ now' l', Relation.ReflTransGen (Step c k) (now, l) (now', l') ∧ Q now' l'

variable {c : Config} {k : Nat} {P Q R : Nat → Lane → Prop}

theorem LeadsTo.trans (h : LeadsTo c k P Q) (h' : LeadsTo c k Q R) : LeadsTo c k P R := by
  intro now l hP
  obtain ⟨now₁, l₁, hsteps, hQ⟩ := h now l hP
  obtain ⟨now₂, l₂, hsteps', hR⟩ := h' now₁ l₁ hQ
  exact ⟨now₂, l₂, hsteps.trans hsteps', hR⟩

/-- What a single cycle leads to. -/
theorem LeadsTo.of_cycle (h : ∀ now l, P now l → l.busy = true ∧ Q (now + 1) (l.cycle c k now)) :
    LeadsTo c k P Q := by
  intro now l hP
  obtain ⟨hbusy, hQ⟩ := h now l hP
  exact ⟨_, _, .single ⟨hbusy, rfl⟩, hQ⟩

/-- What every cycle before a certain one keeps still holds when that one comes. -/
theorem LeadsTo.until {S : Nat → Lane → Prop} {due : Nat}
    (h : ∀ now l, now < due → S now l → l.busy = true ∧ S (now + 1) (l.cycle c k now)) :
    LeadsTo c k (fun now l => now ≤ due ∧ S now l) (fun now l => now = due ∧ S now l) := by
  rintro now l ⟨hle, hS⟩
  -- the induction is on the cycles left
  induction hleft : due - now generalizing now l with
  | zero =>
    have hnow : now = due := by omega
    exact ⟨now, l, .refl, hnow, hS⟩
  | succ left ih =>
    obtain ⟨hbusy, hS'⟩ := h now l (by omega) hS
    obtain ⟨now', l', hsteps, hdone⟩ := ih (now + 1) (l.cycle c k now) (by omega) hS' (by omega)
    exact ⟨now', l', .head ⟨hbusy, rfl⟩ hsteps, hdone⟩

end Lane

namespace Machine

variable {c : Config} {resolver : Resolver} {before m : Machine} {k : Nat} {l : Lane}

/-- **A run of the machine comes to what its lane comes to**, if nothing is left to do there. -/
theorem Alone.run (h : Alone before k l m) (hrest : before.OthersAtRest k) (hc : c.Accepted)
    (hfit : c.TagsFit) (hregular : m.Regular c resolver) (hmode : m.BypassIfSingle c)
    {now' : Nat} {l' : Lane}
    (hsteps : Relation.ReflTransGen (Lane.Step c k) (m.clock, l) (now', l'))
    (hdone : l'.busy = false) :
    ∃ m', Alone before k l' m' ∧ m'.clock = now' ∧ m'.Regular c resolver ∧
      ∀ limit, now' ≤ limit → m.run limit = .ok m' := by
  generalize hstart : (m.clock, l) = start at hsteps
  induction hsteps using Relation.ReflTransGen.head_induction_on generalizing m l with
  | refl =>
    cases hstart
    refine ⟨m, h, rfl, hregular, fun limit _ => runFor_of_not_busy ?_ _⟩
    rw [h.busy hrest]
    exact hdone
  | head hstep hsteps ih =>
    cases hstart
    obtain ⟨hbusy, rfl⟩ := hstep
    have hclock := hregular.clock_cycle hc hfit
    obtain ⟨m', halone, hnow', hregular', hrun⟩ :=
      ih (h.cycle hrest hc hfit hregular hmode) (hregular.cycle hc hfit) hmode.cycle (by rw [hclock])
    refine ⟨m', halone, hnow', hregular', fun limit hlimit => ?_⟩
    have hle : m.clock + 1 ≤ now' := Lane.le_of_steps hsteps
    have hfuel : limit - m.clock = limit - (m.clock + 1) + 1 := by omega
    have hrun' := hrun limit hlimit
    rw [Machine.run, hclock] at hrun'
    rw [Machine.run, hfuel, hregular.runFor_succ hc hfit (by rw [h.busy hrest]; exact hbusy)]
    exact hrun'

/-! ### From a machine at rest and back -/

/-- A machine that is not busy is a lane with nothing under way, whichever core is asked for. -/
theorem Regular.exists_alone (h : m.Regular c resolver) (hbusy : m.busy = false)
    (hk : k < c.cores.toNat) :
    ∃ core, m.cores[k]? = some core ∧ core.AtRest ∧ Alone m k ⟨core, {}, m.l2, m.table⟩ m ∧
      m.l2.AtRest ∧ m.table.port = {} := by
  have hcore := List.getElem?_eq_getElem (hk.trans_eq h.shaped.length.symm)
  have hlink := List.getElem?_eq_getElem (hk.trans_eq h.shaped.switch.links.symm)
  have hrest := atRest hbusy
  rw [hrest.inputs _ (List.mem_of_getElem? hlink)] at hlink
  exact ⟨_, hcore, hrest.cores _ (List.mem_of_getElem? hcore),
    ⟨hcore, hlink, rfl, rfl, fun _ _ => rfl, fun _ _ => rfl⟩, hrest.l2, hrest.table⟩

/-- The core at work may be given traces. -/
theorem Alone.push (h : Alone before k l m) {trace : Trace} (htrace : trace.coreId.toNat = k) :
    ∃ m', m.push trace = .ok m' ∧ Alone before k { l with core := l.core.give trace } m' ∧
      m'.clock = m.clock := by
  subst htrace
  have hlt := (List.getElem?_eq_some_iff.mp h.core).1
  have hpush : m.push trace
      = .ok { m with cores := m.cores.set trace.coreId.toNat (l.core.give trace) } := by
    rw [Machine.push, h.core]
    rfl
  refine ⟨_, hpush, ⟨List.getElem?_set_self hlt, h.link, h.l2, h.table, fun i hi => ?_, h.links⟩,
    rfl⟩
  rw [List.getElem?_set_ne (Ne.symm hi)]
  exact h.cores i hi

/-- Every run that may go on until the cycle `bound` comes to the same end, and all verdicts that
are reached on the way are those of a single core. -/
structure Yields (m : Machine) (bound k : Nat) (vs : List Verdict) (done : Machine) : Prop where
  run : ∀ limit, bound ≤ limit → m.run limit = .ok done
  idle : done.busy = false
  verdicts : ∀ i < m.cores.length, Drive.verdictsOf i done.verdicts
    = Drive.verdictsOf i m.verdicts ++ if i = k then vs else []

/-- The verdicts of such a run are those that its lane comes to. -/
theorem Alone.yields (h : Alone before k l m) (hrest : before.OthersAtRest k) (hc : c.Accepted)
    (hfit : c.TagsFit) (hregular : m.Regular c resolver) (hmode : m.BypassIfSingle c)
    {now' : Nat} {l' : Lane}
    (hsteps : Relation.ReflTransGen (Lane.Step c k) (m.clock, l) (now', l'))
    (hdone : l'.busy = false) {vs : List Verdict}
    (hverdicts : l'.core.checker.verdicts = l.core.checker.verdicts ++ vs) :
    ∃ done, m.Yields now' k vs done ∧ done.clock = now' := by
  obtain ⟨done, halone, hclock, hregular', hrun⟩ :=
    h.run hrest hc hfit hregular hmode hsteps hdone
  refine ⟨done, ⟨hrun, by rw [halone.busy hrest, hdone], fun i hi => ?_⟩, hclock⟩
  by_cases hik : i = k
  · subst hik
    rw [if_pos rfl, hregular.shaped.verdictsOf_verdicts h.core,
      hregular'.shaped.verdictsOf_verdicts halone.core, hverdicts]
  · have hcore := List.getElem?_eq_getElem hi
    have hcore' := (halone.cores i hik).trans ((h.cores i hik).symm.trans hcore)
    rw [if_neg hik, List.append_nil, hregular.shaped.verdictsOf_verdicts hcore,
      hregular'.shaped.verdictsOf_verdicts hcore']

/-- The core at work may be given several traces. -/
theorem Alone.after_pushes {d : Drive} (h : Alone before k l d.machine) {traces : List Trace}
    (htraces : ∀ trace ∈ traces, trace.coreId.toNat = k) :
    Alone before k { l with core.queue := l.core.queue ++ traces }
        (d.after (traces.map .push)).machine ∧
      (d.after (traces.map .push)).machine.clock = d.machine.clock := by
  induction traces generalizing l d with
  | nil =>
    rw [List.append_nil]
    exact ⟨h, rfl⟩
  | cons trace traces ih =>
    obtain ⟨m', hpush, halone, hclock⟩ := h.push (htraces trace List.mem_cons_self)
    have hstep : (d.step (.push trace)).machine = m' := by
      rw [Drive.machine_step, call, hpush]
      rfl
    rw [← hstep] at halone hclock
    obtain ⟨halone', hclock'⟩ := ih halone fun other hother =>
      htraces other (List.mem_cons_of_mem _ hother)
    refine ⟨?_, hclock'.trans hclock⟩
    rw [Core.give, List.append_assoc] at halone'
    exact halone'

end Machine

end BoundsCheck
