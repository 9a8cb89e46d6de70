import BoundsCheck.Proofs.Phases

/-!
# The links of a machine

Some properties hold of all links of a machine at all times, because they hold of an empty link and
survive whatever the components do with one.  Two of them are needed: that every answer brings the
entry the table has for the buffer in question, and that no question becomes visible in the cycle
it was sent in.

* `Machine.Links` — a property holds of all links.
* `Machine.Honest` — all answers bring the right entry, and all caches hold right entries.
* `Machine.Prompt` — every question becomes visible after the cycle it was sent in.
-/

set_option autoImplicit false

namespace BoundsCheck

open Lookup

/-- A property holds of all links of a machine. -/
structure Machine.Links (P : Lookup.Link → Prop) (m : Machine) : Prop where
  /-- It holds of the link above the table. -/
  table : P m.table.port
  /-- It holds of the link above the shared cache. -/
  l2 : P m.l2.port
  /-- It holds of the links above the switch. -/
  inputs : ∀ link ∈ m.switch.inputs, P link
  /-- It holds of the links above the caches of the cores. -/
  cores : ∀ core ∈ m.cores, P core.l1.port

namespace Machine

variable {P : Lookup.Link → Prop} {c : Config} {resolver : Resolver} {m : Machine}

/-! ## What survives a phase -/

/-- The links above the switch after the caches of the cores have worked. -/
theorem inputs_cycleL1s (h : m.cores.length = m.switch.inputs.length) {link : Lookup.Link}
    (hlink : link ∈ m.cycleL1s.switch.inputs) :
    ∃ core ∈ m.cores, ∃ lower ∈ m.switch.inputs, link = (core.l1.cycle m.clock lower).2 := by
  obtain ⟨i, hi⟩ := List.getElem?_of_mem hlink
  rw [cycleL1s, Core.cycleCaches_eq m.clock h] at hi
  obtain ⟨core, lower, hcore, hlower, rfl⟩ := List.getElem?_zipWith_eq_some.mp hi
  exact ⟨core, List.mem_of_getElem? hcore, lower, List.mem_of_getElem? hlower, rfl⟩

theorem Links.cycleL1s (h : m.Links P) (hlinks : m.cores.length = m.switch.inputs.length)
    (hcache : ∀ core ∈ m.cores, ∀ lower ∈ m.switch.inputs,
      P (core.l1.cycle m.clock lower).1.port ∧ P (core.l1.cycle m.clock lower).2) :
    m.cycleL1s.Links P := by
  refine ⟨h.table, h.l2, fun link hlink => ?_, fun core' hcore' => ?_⟩
  · obtain ⟨core, hcore, lower, hlower, rfl⟩ := inputs_cycleL1s hlinks hlink
    exact (hcache core hcore lower hlower).2
  · obtain ⟨i, hi⟩ := List.getElem?_of_mem hcore'
    obtain ⟨core, lower, hcore, hlower, rfl, -⟩ := cores_cycleL1s hlinks hi
    exact (hcache core (List.mem_of_getElem? hcore) lower (List.mem_of_getElem? hlower)).1

theorem Links.cycleSwitch (h : m.Links P) (hP : Switch.Survives m.switch.delay.toNat P) :
    m.cycleSwitch.state.Links P := by
  obtain ⟨hlower, hinputs⟩ := hP.cycle h.l2 h.inputs m.clock
  exact ⟨h.table, hlower, hinputs, h.cores⟩

theorem Links.withCores (h : m.Links P) {f : Core → Core}
    (hf : ∀ core ∈ m.cores, P (f core).l1.port) :
    ({ m with cores := m.cores.map f } : Machine).Links P := by
  refine ⟨h.table, h.l2, h.inputs, fun core' hcore' => ?_⟩
  obtain ⟨core, hcore, rfl⟩ := List.mem_map.mp hcore'
  exact hf core hcore

theorem l1_exchange (now : Nat) (core : Core) : (core.exchange now).l1 = core.l1 := by
  rw [Core.exchange, Core.feed]
  split <;> rfl

theorem Links.exchange (h : m.Links P) : m.exchange.Links P :=
  have h' := h.withCores (f := (·.exchange m.clock)) fun core hcore => by
    rw [l1_exchange]
    exact h.cores core hcore
  ⟨h'.table, h'.l2, h'.inputs, h'.cores⟩

theorem Links.push (h : m.Links P) (trace : Trace) : (m.push trace).state.Links P := by
  obtain ⟨core, hcore, heq⟩ | ⟨-, heq⟩ := m.push_cases trace
  · rw [heq]
    refine ⟨h.table, h.l2, h.inputs, fun core' hcore' => ?_⟩
    rcases List.mem_or_eq_of_mem_set hcore' with hcore' | rfl
    · exact h.cores core' hcore'
    · exact h.cores core (List.mem_of_getElem? hcore)
  · rw [heq]
    exact h

theorem links_reset (hP : P {}) (m : Machine) : m.reset.Links P := by
  refine ⟨hP, hP, fun link hlink => ?_, fun core' hcore' => ?_⟩
  · obtain ⟨-, -, rfl⟩ := List.mem_map.mp hlink
    exact hP
  · obtain ⟨core, -, rfl⟩ := List.mem_map.mp hcore'
    exact hP

/-- The moves of a checker take an answer off the link above its cache or put a question on it. -/
theorem Links.checked (h : m.Links P) {now : Nat}
    (hmove : ∀ {c c' : Checker} {l1 l1' : Lookup.Link},
      Checker.Move now (c, l1) (c', l1') → P l1 → P l1')
    {next : Core → Checker × Lookup.Link}
    (hmoves : ∀ core ∈ m.cores,
      Relation.ReflTransGen (Checker.Move now) (core.checker, core.l1.port) (next core)) :
    ({ m with cores := m.cores.map fun core => core.checked (next core) } : Machine).Links P := by
  refine h.withCores fun core hcore => ?_
  have hlink : ∀ next : Checker × Lookup.Link,
      Relation.ReflTransGen (Checker.Move now) (core.checker, core.l1.port) next → P next.2 := by
    intro next hreach
    induction hreach with
    | refl => exact h.cores core hcore
    | tail _ hstep ih => exact hmove hstep ih
  exact hlink _ (hmoves core hcore)

end Machine

/-! ## Honesty -/

/-- The entry that is configured for a buffer. -/
def Config.entry? (c : Config) (id : BufferId) : Option RangeEntry :=
  c.table.entries.find? (·.bufferId == id)

/-- The entry that a lookup of a buffer is to be answered with. -/
def Config.answerFor (c : Config) (id : BufferId) : RangeEntry := (c.entry? id).getD .sentinel

/-- All answers bring the configured entry, and all caches hold configured entries. -/
structure Machine.Honest (c : Config) (m : Machine) : Prop where
  /-- All answers bring the configured entry. -/
  links : m.Links (Answers c.answerFor)
  /-- The shared cache holds configured entries. -/
  l2 : m.l2.Knows c.answerFor
  /-- So do the caches of the cores. -/
  cores : ∀ core ∈ m.cores, core.l1.Knows c.answerFor

/-- A move of a checker puts no answer on the link above its cache. -/
theorem Checker.Move.answers {now : Nat} {c c' : Checker} {l1 l1' : Lookup.Link}
    {f : BufferId → RangeEntry} (hmove : Move now (c, l1) (c', l1')) (h : Answers f l1) :
    Answers f l1' := by
  cases hmove with
  | settle hpop _ _ => exact (h.pop? hpop).2
  | stall _ _ => exact h
  | unresolved _ _ _ => exact h
  | ask _ _ _ _ => exact h.request _ _ _

/-- A move of a checker sends a question for the next cycle. -/
theorem Checker.Move.timely_requests {now : Nat} {c c' : Checker} {l1 l1' : Lookup.Link}
    (hmove : Move now (c, l1) (c', l1')) (h : l1.requests.Timely) : l1'.requests.Timely := by
  cases hmove with
  | settle _ _ _ => exact h
  | stall _ _ => exact h
  | unresolved _ _ _ => exact h
  | ask _ _ _ _ => exact h.send _ Nat.one_ne_zero _

namespace Machine

variable {c : Config} {resolver : Resolver} {m : Machine}

theorem Shaped.answerFor_table (hs : m.Shaped c resolver) : m.table.answerFor = c.answerFor := by
  funext id
  rw [RangeTable.answerFor, RangeTable.get?, hs.entries, Config.answerFor, Config.entry?]

theorem Honest.cycleTable (h : m.Honest c) (hs : m.Shaped c resolver) :
    m.cycleTable.Honest c := by
  refine ⟨⟨?_, h.links.l2, h.links.inputs, h.links.cores⟩, h.l2, h.cores⟩
  have hanswers := h.links.table
  rw [← hs.answerFor_table] at hanswers ⊢
  exact RangeTable.answers_cycle m.clock hanswers

theorem Honest.cycleL2 (h : m.Honest c) (hmisses : m.l2.misses.WellFormed) :
    m.cycleL2.Honest c := by
  obtain ⟨hknows, habove, hbelow⟩ :=
    RangeCache.honest_cycle h.l2 h.links.l2 hmisses h.links.table m.clock
  exact ⟨⟨hbelow, habove, h.links.inputs, h.links.cores⟩, hknows, h.cores⟩

theorem Honest.cycleL1s (h : m.Honest c) (hs : m.Shaped c resolver)
    (hmisses : ∀ core ∈ m.cores, core.l1.misses.WellFormed) : m.cycleL1s.Honest c := by
  have hcache := fun core (hcore : core ∈ m.cores) lower (hlower : lower ∈ m.switch.inputs) =>
    RangeCache.honest_cycle (h.cores core hcore) (h.links.cores core hcore) (hmisses core hcore)
      (h.links.inputs lower hlower) m.clock
  refine ⟨h.links.cycleL1s hs.links fun core hcore lower hlower =>
    (hcache core hcore lower hlower).2, h.l2, fun core' hcore' => ?_⟩
  obtain ⟨i, hi⟩ := List.getElem?_of_mem hcore'
  obtain ⟨core, lower, hcore, hlower, rfl, -⟩ := cores_cycleL1s hs.links hi
  exact (hcache core (List.mem_of_getElem? hcore) lower (List.mem_of_getElem? hlower)).1

theorem Honest.cycleSwitch (h : m.Honest c) : m.cycleSwitch.state.Honest c :=
  ⟨h.links.cycleSwitch (Switch.survives_answers c.answerFor _), h.l2, h.cores⟩

theorem Honest.checked (h : m.Honest c) {now : Nat} {next : Core → Checker × Lookup.Link}
    (hmoves : ∀ core ∈ m.cores,
      Relation.ReflTransGen (Checker.Move now) (core.checker, core.l1.port) (next core)) :
    ({ m with cores := m.cores.map fun core => core.checked (next core) } : Machine).Honest c := by
  refine ⟨h.links.checked (fun hmove => hmove.answers) hmoves, h.l2, fun core' hcore' => ?_⟩
  obtain ⟨core, hcore, rfl⟩ := List.mem_map.mp hcore'
  exact h.cores core hcore

/-- The cores may change in any way that leaves their caches alone. -/
theorem Honest.withCores (h : m.Honest c) {f : Core → Core} (hf : ∀ core, (f core).l1 = core.l1) :
    ({ m with cores := m.cores.map f } : Machine).Honest c := by
  refine ⟨h.links.withCores fun core hcore => ?_, h.l2, fun core' hcore' => ?_⟩
  · rw [hf]
    exact h.links.cores core hcore
  · obtain ⟨core, hcore, rfl⟩ := List.mem_map.mp hcore'
    rw [hf]
    exact h.cores core hcore

theorem Honest.exchange (h : m.Honest c) : m.exchange.Honest c :=
  have h' := h.withCores (l1_exchange m.clock)
  ⟨h.links.exchange, h'.l2, h'.cores⟩

theorem Honest.push (h : m.Honest c) (trace : Trace) : (m.push trace).state.Honest c := by
  have hlinks := h.links.push trace
  obtain ⟨core, hcore, heq⟩ | ⟨-, heq⟩ := m.push_cases trace
  · rw [heq] at hlinks ⊢
    refine ⟨hlinks, h.l2, fun core' hcore' => ?_⟩
    rcases List.mem_or_eq_of_mem_set hcore' with hcore' | rfl
    · exact h.cores core' hcore'
    · exact h.cores core (List.mem_of_getElem? hcore)
  · rw [heq]
    exact h

theorem honest_reset (c : Config) (m : Machine) : m.reset.Honest c := by
  refine ⟨links_reset answers_default m, fun entry hentry => absurd hentry List.not_mem_nil,
    fun core' hcore' => ?_⟩
  obtain ⟨core, -, rfl⟩ := List.mem_map.mp hcore'
  exact fun entry hentry => absurd hentry List.not_mem_nil

/-! ## Promptness -/

/-- Every question becomes visible after the cycle it was sent in. -/
def Prompt (m : Machine) : Prop := m.Links fun link => link.requests.Timely

theorem Prompt.cycleTable (h : m.Prompt) : m.cycleTable.Prompt := by
  refine ⟨?_, h.l2, h.inputs, h.cores⟩
  show (m.table.cycle m.clock).port.requests.Timely
  rw [RangeTable.requests_cycle]
  exact h.table.drain m.clock

theorem Prompt.cycleL2 (h : m.Prompt) (hlatency : m.l2.config.forwardingLatency ≠ 0) :
    m.cycleL2.Prompt := by
  obtain ⟨habove, hbelow⟩ := RangeCache.timely_requests_cycle h.l2 h.table hlatency m.clock
  exact ⟨hbelow, habove, h.inputs, h.cores⟩

theorem Prompt.cycleL1s (h : m.Prompt) (hs : m.Shaped c resolver)
    (hlatency : c.l1.forwardingLatency ≠ 0) : m.cycleL1s.Prompt := by
  refine Links.cycleL1s h hs.links fun core hcore lower hlower =>
    RangeCache.timely_requests_cycle (Links.cores h core hcore)
      (Links.inputs h lower hlower) ?_ m.clock
  obtain ⟨i, hi⟩ := List.getElem?_of_mem hcore
  rwa [(hs.cores i core hi).l1]

theorem Prompt.cycleSwitch (h : m.Prompt) (hdelay : m.switch.delay ≠ 0) :
    m.cycleSwitch.state.Prompt :=
  Links.cycleSwitch h (Switch.survives_timely fun hzero => hdelay (by rwa [← UInt64.toNat_inj]))

end Machine

end BoundsCheck
