import BoundsCheck.Proofs.Regular
import BoundsCheck.Proofs.Work

/-!
# Progress

The work left in a machine is that of all its parts.  A cycle is a sequence of phases, each of which
moves work from one part to the next and leaves less of it, unless it finds nothing that is visible.
To the ports that a phase takes from, the phases before it have at most sent something, so if none of
them finds anything, then nothing was visible when the cycle began.  In such a cycle only time
passes, and whatever is under way comes one cycle nearer.

* `Machine.work` — the work left in a machine.
* `Machine.Idle` — nothing in a machine can be taken from a port, and no trace enters a checker.
* `Machine.Regular.work_cycle` — a cycle advances, unless the machine is idle.
* `Machine.advances` — so does time, unless everything in the machine is visible.
-/

set_option autoImplicit false

namespace BoundsCheck

open Lookup

/-! ## Time -/

/-- All items on a port are visible. -/
def Port.Visible {α : Type} (now : Nat) (p : Port α) : Prop :=
  ∀ packet ∈ p.packets, packet.ready ≤ now

namespace Port

variable {α : Type} {p : Port α} {now : Nat}

/-- While time passes, whatever is not visible comes nearer. -/
theorem advances (ahead now : Nat) (p : Port α) :
    Advances (p.Visible now) (p.work ahead now) (p.work ahead (now + 1)) := by
  refine Advances.sum_map fun packet _ => ?_
  by_cases hready : packet.ready ≤ now
  · exact .of_eq (by omega) hready
  · exact .of_lt (by omega)

/-- A port on which all is visible is empty if nothing can be taken from it. -/
theorem Visible.hasPending_eq_false (h : p.Visible now) (hnone : p.pop? now = none) :
    p.hasPending = false := by
  obtain ⟨_ | ⟨first, others⟩⟩ := p
  · rfl
  · have hready := h first List.mem_cons_self
    simp [pop?, hready] at hnone

/-- What is sent does not hide what can be taken. -/
theorem pop?_eq_none_of_sendAll {items : List α} {delay sent : Nat}
    (h : (p.sendAll items delay sent).pop? now = none) : p.pop? now = none := by
  obtain ⟨_ | ⟨first, others⟩⟩ := p
  · rfl
  · by_cases hready : first.ready ≤ now
    · simp [pop?, sendAll, hready] at h
    · simp [pop?, hready]

end Port

/-- Nothing can be taken from the link. -/
structure Link.Idle {α β : Type} (now : Nat) (l : Link α β) : Prop where
  requests : l.requests.pop? now = none
  responses : l.responses.pop? now = none

/-- All questions and answers on the link are visible. -/
structure Link.Visible {α β : Type} (now : Nat) (l : Link α β) : Prop where
  requests : l.requests.Visible now
  responses : l.responses.Visible now

theorem Link.advances {α β : Type} (asking answering now : Nat) (l : Link α β) :
    Advances (l.Visible now) (l.work asking answering now) (l.work asking answering (now + 1)) :=
  ((l.requests.advances asking now).add (l.responses.advances answering now)).mono
    fun ⟨hrequests, hresponses⟩ => ⟨hrequests, hresponses⟩

theorem Link.Visible.hasPending_eq_false {α β : Type} {now : Nat} {l : Link α β}
    (h : l.Visible now) (hidle : l.Idle now) : l.hasPending = false := by
  rw [Link.hasPending, h.requests.hasPending_eq_false hidle.requests,
    h.responses.hasPending_eq_false hidle.responses]
  rfl

/-! ## Cores -/

namespace Core

variable {span now : Nat} {core : Core}

/-- The work left for the traces of a core, up to the link below its cache. -/
def work (span t : Nat) (core : Core) : Nat :=
  core.queue.length * (13 * span) + core.checker.work span t + core.l1.work (11 * span) span t

theorem work_checked {rest : Multiset Request} (h : core.checker.Sound (underway core.l1.port + rest))
    (hopen : core.checker.Open) (hspan : 0 < span) (now : Nat) :
    Advances (core.l1.port.responses.pop? now = none ∧ core.checker.input.pop? now = none)
      (core.work span (now + 1))
      ((core.checked (core.checker.cycle now core.l1.port).state).work span (now + 1)) := by
  refine (h.work_cycle hopen hspan now).within
    (core.queue.length * (13 * span) + core.l1.misses.waiting.card * (3 * span)) ?_ ?_
  · simp only [work, RangeCache.work]
    omega
  · simp only [work, RangeCache.work, checked]
    omega

theorem work_collect (hspan : 0 < span) (now : Nat) (core : Core) :
    Advances (core.checker.output.pop? now = none) (core.work span (now + 1))
      ((core.collect now).work span (now + 1)) := by
  have hdrain := core.checker.output.work_drain now span
  have hbefore : core.work span (now + 1)
      = (core.collect now).work span (now + 1) + (core.checker.output.drain now).1.length * span := by
    simp only [work, Checker.work, collect]
    omega
  rcases hleaving : (core.checker.output.drain now).1 with _ | ⟨packet, packets⟩
  · rw [hleaving, List.length_nil] at hbefore
    exact .of_eq (by omega) (Port.pop?_eq_none_of_drain hleaving)
  · rw [hleaving] at hbefore
    have hpos : 0 < (packet :: packets).length * span := Nat.mul_pos (Nat.succ_pos _) hspan
    exact .of_lt (by omega)

theorem work_feed (hspan : 0 < span) (now : Nat) (core : Core) :
    Advances (core.entering? = none) (core.work span (now + 1))
      ((core.feed now).work span (now + 1)) := by
  rcases core.feed_cases now with ⟨hnone, heq⟩ | ⟨trace, rest, -, hqueue, heq⟩
  · rw [heq]
    exact .of_eq rfl hnone
  · rw [heq]
    refine .of_lt ?_
    simp only [work, Checker.work, hqueue, List.length_cons, Nat.succ_mul, Port.work_send]
    omega

/-- Exchanging traces with a checker advances, unless none leaves and none enters. -/
theorem work_exchange (hspan : 0 < span) (now : Nat) (core : Core) :
    Advances (core.checker.output.pop? now = none ∧ core.entering? = none)
      (core.work span (now + 1)) ((core.exchange now).work span (now + 1)) :=
  (work_collect hspan now core).trans (work_feed hspan now (core.collect now))

/-- Nothing can be taken from a port of the core, and no trace enters its checker. -/
structure Idle (now : Nat) (core : Core) : Prop where
  port : core.l1.port.Idle now
  input : core.checker.input.pop? now = none
  output : core.checker.output.pop? now = none
  entering : core.entering? = none

/-- All that is under way in the core is visible. -/
structure Visible (now : Nat) (core : Core) : Prop where
  port : core.l1.port.Visible now
  input : core.checker.input.Visible now
  output : core.checker.output.Visible now

theorem advances (span now : Nat) (core : Core) :
    Advances (core.Visible now) (core.work span now) (core.work span (now + 1)) := by
  have hinput := core.checker.input.advances (12 * span) now
  have houtput := core.checker.output.advances span now
  have hport := core.l1.port.advances (11 * span) (2 * span) now
  refine (((hinput.add houtput).add hport).mono fun ⟨⟨hinput, houtput⟩, hport⟩ =>
    ⟨hport, hinput, houtput⟩).within
      (core.queue.length * (13 * span) + core.l1.misses.waiting.card * (3 * span)) ?_ ?_
  · simp only [work, Checker.work, RangeCache.work]
    omega
  · simp only [work, Checker.work, RangeCache.work]
    omega

/-- A phase takes from ports to which earlier phases have only sent, so if it finds nothing there,
then there was nothing when the cycle began. -/
theorem idle_of_cycle {lower : Lookup.Link} (hresponses : lower.responses.pop? now = none)
    (hrequests : core.l1.port.requests.pop? now = none)
    (hforward : (core.cycleCache now lower).2.requests.pop? now = none)
    (hanswer : (core.cycleCache now lower).1.l1.port.responses.pop? now = none)
    (hinput : core.checker.input.pop? now = none) {next : Core}
    (hnext : (core.cycleCache now lower).1.checked (core.checker.cycle now
      (core.cycleCache now lower).1.l1.port).state = next)
    (houtput : next.checker.output.pop? now = none) (hentering : next.entering? = none) :
    lower.Idle now ∧ core.Idle now := by
  obtain ⟨passed, hpassed, -⟩ := core.l1.forwards_cycle now lower
  obtain ⟨answers, hanswers⟩ := core.l1.responses_cycle now lower
  -- the checker finds nothing to do either, and only the cache has worked
  rw [Checker.cycle_of_idle hanswer hinput] at hnext
  subst hnext
  change (core.l1.cycle now lower).2.requests.pop? now = none at hforward
  change (core.l1.cycle now lower).1.port.responses.pop? now = none at hanswer
  rw [hpassed] at hforward
  rw [hanswers] at hanswer
  exact ⟨⟨Port.pop?_eq_none_of_sendAll hforward, hresponses⟩,
    ⟨⟨hrequests, Port.pop?_eq_none_of_sendAll hanswer⟩, hinput, houtput, hentering⟩⟩

end Core

/-! ## The work left in a machine -/

/-- A number of cycles that is longer than any delay. -/
def Config.span (c : Config) : Nat :=
  c.l1.hitLatency.toNat + c.l1.forwardingLatency.toNat + c.l2.hitLatency.toNat
    + c.l2.forwardingLatency.toNat + c.table.latency.toNat + c.switch.delay.toNat + 1

namespace Machine

variable {c : Config} {resolver : Resolver} {m : Machine}

/-- The work left in a machine in the cycle `t`. -/
def work (span t : Nat) (m : Machine) : Nat :=
  (m.cores.map (·.work span t)).sum + m.switch.work (7 * span) span t
    + m.l2.work (6 * span) span t + m.table.port.work (2 * span) span t

/-! ### Phases

Each phase advances, unless there is nothing that it can take.  It is measured by the time at its
end, when all that it has taken had been visible before. -/

theorem Regular.work_cycleTable (h : m.Regular c resolver) :
    Advances (m.table.port.requests.pop? m.clock = none) (m.work c.span (m.clock + 1))
      (m.cycleTable.work c.span (m.clock + 1)) := by
  have hspan : m.table.latency.toNat < c.span := by
    rw [h.shaped.latency, Config.span]
    omega
  exact (RangeTable.work_cycle hspan m.clock).within _ (Nat.add_comm _ _) (Nat.add_comm _ _)

theorem Regular.work_cycleL2 (h : m.Regular c resolver) :
    Advances (m.table.port.responses.pop? m.clock = none ∧ m.l2.port.requests.pop? m.clock = none)
      (m.work c.span (m.clock + 1)) (m.cycleL2.work c.span (m.clock + 1)) := by
  have hspan : m.l2.config.hitLatency.toNat < c.span ∧
      m.l2.config.forwardingLatency.toNat < c.span := by
    rw [h.shaped.l2, Config.span]
    omega
  have hasking : 2 * c.span + 4 * c.span ≤ 6 * c.span := by omega
  refine (RangeCache.work_cycle h.balanced.misses hspan.1 hspan.2 hasking m.clock
    m.table.port).within ((m.cores.map (·.work c.span (m.clock + 1))).sum
      + m.switch.work (7 * c.span) c.span (m.clock + 1)) ?_ ?_
  · rw [work]
    omega
  · simp only [work, Machine.cycleL2]
    omega

theorem Regular.work_cycleL1s (h : m.Regular c resolver) :
    Advances (∀ pair ∈ m.cores.zip m.switch.inputs,
        pair.2.responses.pop? m.clock = none ∧ pair.1.l1.port.requests.pop? m.clock = none)
      (m.work c.span (m.clock + 1)) (m.cycleL1s.work c.span (m.clock + 1)) := by
  -- each cache works together with one input of the switch
  have hpair : ∀ pair ∈ m.cores.zip m.switch.inputs,
      Advances (pair.2.responses.pop? m.clock = none ∧ pair.1.l1.port.requests.pop? m.clock = none)
        (pair.1.work c.span (m.clock + 1)
          + pair.2.work (7 * c.span) c.span (m.clock + 1))
        ((pair.1.cycleCache m.clock pair.2).1.work c.span (m.clock + 1)
          + (pair.1.cycleCache m.clock pair.2).2.work (7 * c.span) c.span (m.clock + 1)) := by
    rintro ⟨core, lower⟩ hmem
    obtain ⟨i, hi⟩ := List.getElem?_of_mem (List.of_mem_zip hmem).1
    have hspan : core.l1.config.hitLatency.toNat < c.span ∧
        core.l1.config.forwardingLatency.toNat < c.span := by
      rw [(h.shaped.cores i core hi).l1, Config.span]
      omega
    have hasking : 7 * c.span + 4 * c.span ≤ 11 * c.span := by omega
    refine (RangeCache.work_cycle (h.balanced.cores i core hi).misses hspan.1 hspan.2 hasking
      m.clock lower).within (core.queue.length * (13 * c.span)
        + core.checker.work c.span (m.clock + 1)) ?_ ?_
    · simp only [Core.work]
      omega
    · simp only [Core.work, Core.cycleCache]
      omega
  refine (Advances.sum_zipWith (f := (·.work c.span (m.clock + 1)))
    (g := (·.work (7 * c.span) c.span (m.clock + 1)))
    (u := fun core lower => (core.cycleCache m.clock lower).1)
    (v := fun core lower => (core.cycleCache m.clock lower).2) h.shaped.links hpair).within
    (m.l2.work (6 * c.span) c.span (m.clock + 1)
      + m.table.port.work (2 * c.span) c.span (m.clock + 1)) ?_ ?_
  · simp only [work, Switch.work]
    omega
  · simp only [work, Switch.work, Machine.cycleL1s, Core.cycleCaches_eq m.clock h.shaped.links]
    omega

/-- Whatever the shared cache answers belongs to some core. -/
theorem Regular.deliverable (h : m.Regular c resolver) : m.switch.Deliverable m.l2.port := by
  intro rsp hrsp
  have hpending : rsp.question ∈ m.l2.pending :=
    Multiset.mem_add.mpr (.inl (Multiset.mem_add.mpr (.inr (Multiset.mem_coe.mpr
      (List.mem_map_of_mem hrsp)))))
  have hrouted := h.balanced.routed rsp.question hpending
  rw [← h.shaped.links]
  exact hrouted

/-- Whatever a core asks leaves room for its number. -/
theorem Regular.stampable (h : m.Regular c resolver) (hfit : c.TagsFit) : m.switch.Stampable := by
  intro link hlink req hreq
  obtain ⟨i, hi⟩ := List.getElem?_of_mem hlink
  refine h.balanced.fits h.shaped hfit i req ?_
  rw [Switch.traffic, hi, Option.elim_some, underway]
  exact Multiset.mem_add.mpr (.inl (Multiset.mem_add.mpr (.inl (Multiset.mem_coe.mpr hreq))))

theorem Regular.work_cycleSwitch (h : m.Regular c resolver) (hfit : c.TagsFit) :
    Advances (m.l2.port.responses.pop? m.clock = none ∧
        ∀ link ∈ m.switch.inputs, link.requests.pop? m.clock = none)
      (m.work c.span (m.clock + 1)) (m.cycleSwitch.state.work c.span (m.clock + 1)) := by
  have hspan : m.switch.delay.toNat < c.span := by
    rw [h.shaped.delay, Config.span]
    omega
  have hasking : 6 * c.span + c.span = 7 * c.span := by omega
  refine (h.shaped.switch.work_cycle h.deliverable (h.stampable hfit) hspan hasking m.clock).within
    ((m.cores.map (·.work c.span (m.clock + 1))).sum + m.l2.misses.waiting.card * (3 * c.span)
      + m.table.port.work (2 * c.span) c.span (m.clock + 1)) ?_ ?_
  · simp only [work, RangeCache.work]
    omega
  · simp only [work, RangeCache.work, cycleSwitch, Outcome.state_mapError, Outcome.state_map]
    omega

/-- No checker of the machine has been given a trace that it gets stuck on. -/
def Open (m : Machine) : Prop := ∀ core ∈ m.cores, core.checker.Open

theorem Regular.work_cycleCheckers (h : m.Regular c resolver) (hopen : m.Open) :
    Advances (∀ core ∈ m.cores,
        core.l1.port.responses.pop? m.clock = none ∧ core.checker.input.pop? m.clock = none)
      (m.work c.span (m.clock + 1))
      (work c.span (m.clock + 1) { m with
        cores := m.cores.map fun core =>
          core.checked (core.checker.cycle m.clock core.l1.port).state }) := by
  have hcores : Advances (∀ core ∈ m.cores,
      core.l1.port.responses.pop? m.clock = none ∧ core.checker.input.pop? m.clock = none)
      (m.cores.map (·.work c.span (m.clock + 1))).sum
      (m.cores.map fun core => (core.checked
        (core.checker.cycle m.clock core.l1.port).state).work c.span (m.clock + 1)).sum := by
    refine Advances.sum_map fun core hcore => ?_
    obtain ⟨i, hi⟩ := List.getElem?_of_mem hcore
    exact core.work_checked (h.balanced.cores i core hi).sound (hopen core hcore)
      (Nat.succ_pos _) m.clock
  refine hcores.within (m.switch.work (7 * c.span) c.span (m.clock + 1)
    + m.l2.work (6 * c.span) c.span (m.clock + 1)
    + m.table.port.work (2 * c.span) c.span (m.clock + 1)) ?_ ?_
  · rw [work]
    omega
  · simp only [work, List.map_map, Function.comp_def]
    omega

theorem work_exchange {span : Nat} (hspan : 0 < span) (m : Machine) :
    Advances (∀ core ∈ m.cores,
        core.checker.output.pop? m.clock = none ∧ core.entering? = none)
      (m.work span (m.clock + 1)) (m.exchange.work span (m.clock + 1)) := by
  have hcores : Advances (∀ core ∈ m.cores,
      core.checker.output.pop? m.clock = none ∧ core.entering? = none)
      (m.cores.map (·.work span (m.clock + 1))).sum
      (m.cores.map fun core => (core.exchange m.clock).work span (m.clock + 1)).sum :=
    Advances.sum_map fun core _ => core.work_exchange hspan m.clock
  refine hcores.within (m.switch.work (7 * span) span (m.clock + 1)
    + m.l2.work (6 * span) span (m.clock + 1)
    + m.table.port.work (2 * span) span (m.clock + 1)) ?_ ?_
  · rw [work]
    omega
  · simp only [work, exchange, List.map_map, Function.comp_def]
    omega

/-! ### Cycles -/

/-- Nothing in the machine can be taken from a port, and no trace enters a checker. -/
structure Idle (m : Machine) : Prop where
  table : m.table.port.Idle m.clock
  l2 : m.l2.port.Idle m.clock
  inputs : ∀ link ∈ m.switch.inputs, link.Idle m.clock
  cores : ∀ core ∈ m.cores, core.Idle m.clock

/-- All that is under way in the machine is visible. -/
structure Visible (m : Machine) : Prop where
  table : m.table.port.Visible m.clock
  l2 : m.l2.port.Visible m.clock
  inputs : ∀ link ∈ m.switch.inputs, link.Visible m.clock
  cores : ∀ core ∈ m.cores, core.Visible m.clock

theorem advances (span : Nat) (m : Machine) :
    Advances m.Visible (m.work span m.clock) (m.work span (m.clock + 1)) := by
  have hcores : Advances (∀ core ∈ m.cores, core.Visible m.clock)
      (m.cores.map (·.work span m.clock)).sum (m.cores.map (·.work span (m.clock + 1))).sum :=
    Advances.sum_map fun core _ => core.advances span m.clock
  have hinputs : Advances (∀ link ∈ m.switch.inputs, link.Visible m.clock)
      (m.switch.work (7 * span) span m.clock) (m.switch.work (7 * span) span (m.clock + 1)) :=
    Advances.sum_map fun link _ => link.advances (7 * span) span m.clock
  have hl2 := m.l2.port.advances (6 * span) (2 * span) m.clock
  have htable := m.table.port.advances (2 * span) span m.clock
  refine ((((hcores.add hinputs).add hl2).add htable).mono
    fun ⟨⟨⟨hcores, hinputs⟩, hl2⟩, htable⟩ => ⟨htable, hl2, hinputs, hcores⟩).within
      (m.l2.misses.waiting.card * (3 * span)) ?_ ?_
  · simp only [work, RangeCache.work]
    omega
  · simp only [work, RangeCache.work]
    omega

theorem mem_cycleL1s (h : m.cores.length = m.switch.inputs.length) {core : Core}
    {lower : Lookup.Link} (hpair : (core, lower) ∈ m.cores.zip m.switch.inputs) :
    (core.cycleCache m.clock lower).1 ∈ m.cycleL1s.cores ∧
      (core.cycleCache m.clock lower).2 ∈ m.cycleL1s.switch.inputs := by
  obtain ⟨i, hi⟩ := List.getElem?_of_mem hpair
  obtain ⟨hcore, hlower⟩ := List.getElem?_zip_eq_some.mp hi
  rw [cycleL1s, Core.cycleCaches_eq m.clock h]
  exact ⟨List.mem_of_getElem? (List.getElem?_zipWith_eq_some.mpr ⟨core, lower, hcore, hlower, rfl⟩),
    List.mem_of_getElem? (List.getElem?_zipWith_eq_some.mpr ⟨core, lower, hcore, hlower, rfl⟩)⟩

/-- If no phase of a cycle finds anything to take, then the machine was idle when it began. -/
theorem Shaped.idle_of_cycle (h : m.Shaped c resolver)
    (htable : m.table.port.requests.pop? m.clock = none)
    (hl2 : m.cycleTable.table.port.responses.pop? m.clock = none ∧
      m.l2.port.requests.pop? m.clock = none)
    (hl1s : ∀ pair ∈ m.cores.zip m.switch.inputs,
      pair.2.responses.pop? m.clock = none ∧ pair.1.l1.port.requests.pop? m.clock = none)
    (hswitch : m.looked.l2.port.responses.pop? m.clock = none ∧
      ∀ link ∈ m.looked.switch.inputs, link.requests.pop? m.clock = none)
    (hcheckers : ∀ core ∈ m.switched.cores,
      core.l1.port.responses.pop? m.clock = none ∧ core.checker.input.pop? m.clock = none)
    (hexchange : ∀ core ∈ m.judged.cores,
      core.checker.output.pop? m.clock = none ∧ core.entering? = none) : m.Idle := by
  have hpair : ∀ pair ∈ m.cores.zip m.switch.inputs,
      pair.2.Idle m.clock ∧ pair.1.Idle m.clock := by
    rintro ⟨core, lower⟩ hmem
    obtain ⟨hresponses, hrequests⟩ := hl1s _ hmem
    obtain ⟨hcore, hlower⟩ := mem_cycleL1s (m := m.cycleTable.cycleL2) h.links hmem
    obtain ⟨hanswer, hinput⟩ := hcheckers _ hcore
    have hjudged := List.mem_map_of_mem (f := fun core : Core =>
      core.checked (core.checker.cycle m.clock core.l1.port).state) hcore
    obtain ⟨houtput, hentering⟩ := hexchange _ hjudged
    exact Core.idle_of_cycle hresponses hrequests (hswitch.2 _ hlower) hanswer hinput rfl houtput
      hentering
  refine ⟨⟨htable, ?_⟩, ⟨hl2.2, ?_⟩, fun link hlink => ?_, fun core hcore => ?_⟩
  · have hresponses := hl2.1
    change (m.table.cycle m.clock).port.responses.pop? m.clock = none at hresponses
    rw [RangeTable.responses_cycle] at hresponses
    exact Port.pop?_eq_none_of_sendAll hresponses
  · obtain ⟨answers, hanswers⟩ := m.l2.responses_cycle m.clock m.cycleTable.table.port
    have hresponses := hswitch.1
    change (m.l2.cycle m.clock m.cycleTable.table.port).1.port.responses.pop? m.clock = none
      at hresponses
    rw [hanswers] at hresponses
    exact Port.pop?_eq_none_of_sendAll hresponses
  · rw [← List.map_snd_zip (Nat.le_of_eq h.links.symm)] at hlink
    obtain ⟨pair, hmem, rfl⟩ := List.mem_map.mp hlink
    exact (hpair pair hmem).1
  · rw [← List.map_fst_zip (Nat.le_of_eq h.links)] at hcore
    obtain ⟨pair, hmem, rfl⟩ := List.mem_map.mp hcore
    exact (hpair pair hmem).2

/-- **A cycle advances**, unless the machine is idle. -/
theorem Regular.work_cycle (h : m.Regular c resolver) (hc : c.Accepted) (hfit : c.TagsFit)
    (hopen : m.Open) :
    Advances m.Idle (m.work c.span (m.clock + 1)) (m.cycle.state.work c.span (m.clock + 1)) := by
  have hswitched := (h.switched hc hfit).2
  have hopen' : m.switched.Open := by
    intro core' hcore'
    obtain ⟨i, hi⟩ := List.getElem?_of_mem hcore'
    obtain ⟨core, lower, hcore, -, rfl, -⟩ :=
      cores_cycleL1s (h.cycleTable.cycleL2 hc).shaped.links hi
    exact hopen core (List.mem_of_getElem? hcore)
  have htable := h.work_cycleTable
  have hl2 := h.cycleTable.work_cycleL2
  have hl1s := (h.cycleTable.cycleL2 hc).work_cycleL1s
  have hswitch := (h.looked hc).work_cycleSwitch hfit
  have hcheckers := hswitched.work_cycleCheckers hopen'
  have hexchange := work_exchange (Nat.succ_pos _ : 0 < c.span) m.judged
  rw [h.cycle_eq hc hfit]
  refine (((((htable.trans hl2).trans hl1s).trans hswitch).trans hcheckers).trans hexchange).mono ?_
  rintro ⟨⟨⟨⟨⟨htable, hl2⟩, hl1s⟩, hswitch⟩, hcheckers⟩, hexchange⟩
  exact h.shaped.idle_of_cycle htable hl2 hl1s hswitch hcheckers hexchange

end Machine

end BoundsCheck
