import BoundsCheck.Proofs.Phases

/-!
# Balance

At every level of a machine the questions that are waited for are those that are under way below:
the slots of a checker wait for what its cache still owes, a cache of a core waits for its share of
what is under way in the switch and the shared cache, and the shared cache waits for what is under
way at the table.  No level is balanced on its own, since a phase of a cycle moves questions from
one to the next, but all of them together are at all times, and therefore no cycle is cut short.

* `Machine.below` — all lookups below the cache of a core.
* `Machine.Balanced` — the balance of all levels.
* `Machine.Balanced.cycleSwitch`, `Machine.Balanced.cycleCheckers` — the two phases that could be
  cut short are not.
-/

set_option autoImplicit false

namespace BoundsCheck

open Lookup

/-- The checker waits for what the cache owes it, and the cache for the given lookups below. -/
structure Core.Balanced (below : Multiset Request) (core : Core) : Prop where
  /-- The slots of the checker wait for the lookups pending in the cache. -/
  sound : core.checker.Sound core.l1.pending
  /-- The misses of the cache are in order. -/
  misses : core.l1.misses.WellFormed
  /-- The first question of each of them is below. -/
  below : below = core.l1.misses.heads

/-- The lookups below the cache of a core, with the tags they had there: those on its input of the
switch, and its share of those pending in the shared cache. -/
def Machine.below (m : Machine) (i : Nat) : Multiset Request :=
  m.switch.inputs[i]?.elim 0 underway + Switch.share m.switch.shift i m.l2.pending

/-- At every level the questions that are waited for are under way below. -/
structure Machine.Balanced (m : Machine) : Prop where
  /-- All cores are balanced. -/
  cores : ∀ i (core : Core), m.cores[i]? = some core → core.Balanced (m.below i)
  /-- The misses of the shared cache are in order. -/
  misses : m.l2.misses.WellFormed
  /-- The first question of each of them is below. -/
  below : underway m.table.port = m.l2.misses.heads
  /-- All lookups in the shared cache come from some core. -/
  routed : Switch.Routed m.switch.shift m.cores.length m.l2.pending

namespace Core

variable {below : Multiset Request} {core : Core}

/-- The questions that a core has below its cache carry tags of its slots. -/
theorem Balanced.toNat_lt_capacity (h : core.Balanced below) {req : Request} (hreq : req ∈ below) :
    req.tag.toNat < core.checker.capacity := by
  rw [h.below] at hreq
  have hpending : req ∈ core.l1.pending :=
    Multiset.mem_add.mpr (.inr (Multiset.mem_of_le (MissTable.heads_le_waiting _) hreq))
  obtain ⟨slot, hget, -⟩ := h.sound.exists_slot hpending
  exact SlotTable.toNat_lt_capacity hget

/-- A cycle of the checker of a balanced core goes through and is made of moves. -/
theorem Balanced.cycleChecker (h : core.Balanced below) (now : Nat) :
    (core.checker.cycle now core.l1.port).error? = none ∧
      Relation.ReflTransGen (Checker.Move now) (core.checker, core.l1.port)
        (core.checker.cycle now core.l1.port).state :=
  h.sound.cycle now

theorem Balanced.checked (h : core.Balanced below) {now : Nat} {next : Checker × Lookup.Link}
    (hmoves : Relation.ReflTransGen (Checker.Move now) (core.checker, core.l1.port) next) :
    (core.checked next).Balanced below :=
  ⟨h.sound.moves hmoves, h.misses, h.below⟩

/-- A trace is only fed to a checker that has room for it. -/
theorem Balanced.exchange (h : core.Balanced below) (now : Nat) :
    (core.exchange now).Balanced below := by
  obtain ⟨hslots, houtstanding, hsingle, hroom⟩ := h.sound
  rw [Core.exchange]
  rcases (core.collect now).feed_cases now with ⟨-, heq⟩ | ⟨trace, rest, hfree, -, heq⟩
  · rw [heq]
    exact ⟨⟨hslots, houtstanding, hsingle, hroom⟩, h.misses, h.below⟩
  · rw [heq]
    refine ⟨⟨hslots, houtstanding, hsingle, ?_⟩, h.misses, h.below⟩
    rw [Checker.hasRoom, decide_eq_true_eq] at hfree
    rw [← Port.length_items, Port.items_send, List.length_append, Port.length_items]
    exact hfree

theorem balanced_reset (h : core.checker.capacity ≤ 2 ^ 32) : core.reset.Balanced 0 := by
  have hheld : core.checker.slots.clear.held = 0 := by
    rw [SlotTable.clear_eq, SlotTable.held_ofCapacity]
  refine ⟨⟨?_, ?_, fun slot hslot => ?_, ?_⟩, MissTable.wellFormed_default, rfl⟩
  · show core.checker.slots.clear.WellFormed
    rw [SlotTable.clear_eq]
    exact SlotTable.wellFormed_ofCapacity h
  · show core.checker.slots.clear.held.map _ = _
    rw [hheld]
    rfl
  · change slot ∈ core.checker.slots.clear.held at hslot
    rw [hheld] at hslot
    exact absurd hslot (Multiset.notMem_zero _)
  · exact Nat.zero_le _

end Core

namespace Machine

variable {c : Config} {resolver : Resolver} {m : Machine}

/-! ## The caches and the table -/

theorem Balanced.cycleTable (h : m.Balanced) : m.cycleTable.Balanced :=
  ⟨h.cores, h.misses, (RangeTable.underway_cycle m.clock m.table).trans h.below, h.routed⟩

theorem pending_cycleL2 (h : m.Balanced) : m.cycleL2.l2.pending = m.l2.pending :=
  RangeCache.pending_cycle h.misses m.clock m.table.port

theorem Balanced.cycleL2 (h : m.Balanced) : m.cycleL2.Balanced := by
  refine ⟨fun i core hcore => ?_, RangeCache.wellFormed_cycle h.misses m.clock _, ?_, ?_⟩
  · rw [Machine.below, pending_cycleL2 h]
    exact h.cores i core hcore
  · have hbelow : underway m.table.port + 0 = m.l2.misses.heads := by
      rw [add_zero]
      exact h.below
    exact (add_zero _).symm.trans (RangeCache.heads_cycle h.misses hbelow m.clock)
  · rw [pending_cycleL2 h]
    exact h.routed

theorem Balanced.cycleL1s (h : m.Balanced) (hs : m.Shaped c resolver) : m.cycleL1s.Balanced := by
  refine ⟨fun i core' hcore' => ?_, h.misses, h.below, ?_⟩
  · obtain ⟨core, lower, hcore, hlower, rfl, hlower'⟩ := cores_cycleL1s hs.links hcore'
    obtain ⟨hsound, hmisses, hbelow⟩ := h.cores i core hcore
    refine ⟨?_, RangeCache.wellFormed_cycle hmisses m.clock lower, ?_⟩
    · show core.checker.Sound (core.l1.cycle m.clock lower).1.pending
      rw [RangeCache.pending_cycle hmisses]
      exact hsound
    · rw [Machine.below, hlower', Option.elim_some]
      rw [Machine.below, hlower, Option.elim_some] at hbelow
      exact RangeCache.heads_cycle hmisses hbelow m.clock
  · rw [(length_cycleL1s hs.links).1]
    exact h.routed

/-! ## The switch -/

/-- What is below a cache of a core is the traffic of its input of the switch, together with its
share of what waits in the shared cache. -/
theorem below_eq (m : Machine) (i : Nat) :
    m.below i = m.switch.traffic m.l2.port i
      + Switch.share m.switch.shift i m.l2.misses.waiting := by
  rw [below, RangeCache.pending, Switch.share_add, Switch.traffic, add_assoc]

/-- All requests at the switch leave room for the number of their input. -/
theorem Balanced.fits (h : m.Balanced) (hs : m.Shaped c resolver) (hfit : c.TagsFit) :
    m.switch.Fits m.l2.port := by
  intro i req hreq
  have hbelow : req ∈ m.below i := by
    rw [below_eq]
    exact Multiset.mem_add.mpr (.inl hreq)
  rcases hcore : m.cores[i]? with _ | core
  · -- nothing belongs to an input that does not exist
    exfalso
    rw [List.getElem?_eq_none_iff] at hcore
    rw [Machine.below, List.getElem?_eq_none_iff.mpr (by rwa [← hs.links]), Option.elim_none,
      zero_add, Switch.share, Multiset.mem_map] at hbelow
    obtain ⟨other, hother, -⟩ := hbelow
    obtain ⟨hmem, hinput⟩ := Multiset.mem_filter.mp hother
    have hlt := h.routed other hmem
    omega
  · have htag := (h.cores i core hcore).toNat_lt_capacity hbelow
    rw [(hs.cores i core hcore).capacity] at htag
    rw [hs.switch.shift]
    exact Nat.lt_of_lt_of_le (Nat.mul_lt_mul_of_pos_right htag (Nat.two_pow_pos _)) hfit

/-- **The switch of a balanced machine is not cut short**, and the machine stays balanced. -/
theorem Balanced.cycleSwitch (h : m.Balanced) (hs : m.Shaped c resolver) (hfit : c.TagsFit) :
    m.cycleSwitch.error? = none ∧ m.cycleSwitch.state.Balanced := by
  have hlower : Switch.Routed m.switch.shift c.cores.toNat (underway m.l2.port) := by
    rw [← hs.length]
    exact h.routed.mono (Multiset.le_add_right _ _)
  have hwaiting : Switch.Routed m.switch.shift c.cores.toNat m.l2.misses.waiting := by
    rw [← hs.length]
    exact h.routed.mono (Multiset.le_add_left _ _)
  obtain ⟨herror, hrouted, htraffic⟩ :=
    Switch.traffic_cycle hs.switch hlower (h.fits hs hfit) m.clock
  have hshift : m.cycleSwitch.state.switch.shift = m.switch.shift :=
    hs.cycleSwitch.switch.shift.trans hs.switch.shift.symm
  refine ⟨?_, fun i core hcore => ?_, h.misses, h.below, ?_⟩
  · rw [Machine.cycleSwitch, Outcome.error?_mapError, Outcome.error?_map, herror]
    rfl
  · have hbelow : m.cycleSwitch.state.below i = m.below i := by
      rw [below_eq, below_eq, hshift]
      exact congrArg (· + _) (htraffic i)
    rw [hbelow]
    exact h.cores i core hcore
  · rw [hshift, hs.cycleSwitch.length]
    exact hrouted.add hwaiting

/-! ## The cores -/

theorem Balanced.withCores (h : m.Balanced) {f : Core → Core}
    (hf : ∀ core ∈ m.cores, ∀ below, core.Balanced below → (f core).Balanced below) :
    ({ m with cores := m.cores.map f } : Machine).Balanced := by
  refine ⟨fun i core' hcore' => ?_, h.misses, h.below, ?_⟩
  · rw [List.getElem?_map, Option.map_eq_some_iff] at hcore'
    obtain ⟨core, hcore, rfl⟩ := hcore'
    exact hf core (List.mem_of_getElem? hcore) _ (h.cores i core hcore)
  · show Switch.Routed _ (m.cores.map f).length _
    rw [List.length_map]
    exact h.routed

/-- **No checker of a balanced machine is cut short**, and the machine stays balanced. -/
theorem Balanced.cycleCheckers (h : m.Balanced) :
    m.cycleCheckers = .ok { m with
      cores := m.cores.map fun core =>
        core.checked (core.checker.cycle m.clock core.l1.port).state } ∧
    m.cycleCheckers.state.Balanced := by
  have heq := cycleCheckers_eq (m := m) fun core hmem => by
    obtain ⟨i, hi⟩ := List.getElem?_of_mem hmem
    exact ((h.cores i core hi).cycleChecker m.clock).1
  refine ⟨heq, ?_⟩
  rw [heq]
  exact h.withCores fun core _ below hcore => hcore.checked (hcore.cycleChecker m.clock).2

theorem Balanced.exchange (h : m.Balanced) : m.exchange.Balanced :=
  have h' := h.withCores fun _ _ _ hcore => hcore.exchange m.clock
  ⟨h'.cores, h'.misses, h'.below, h'.routed⟩

/-! ## Calls -/

theorem Balanced.push (h : m.Balanced) (trace : Trace) : (m.push trace).state.Balanced := by
  obtain ⟨core, hcore, heq⟩ | ⟨-, heq⟩ := m.push_cases trace
  · rw [heq]
    refine ⟨fun i core' hcore' => ?_, h.misses, h.below, ?_⟩
    · obtain ⟨rfl, -, rfl⟩ | ⟨-, hcore'⟩ := getElem?_set_cases hcore'
      · have hold := h.cores _ core hcore
        exact ⟨⟨hold.sound.slots, hold.sound.outstanding, hold.sound.single, hold.sound.room⟩,
          hold.misses, hold.below⟩
      · exact h.cores i core' hcore'
    · show Switch.Routed _ (m.cores.set _ _).length _
      rw [List.length_set]
      exact h.routed
  · rw [heq]
    exact h

theorem Balanced.dropCompleted (h : m.Balanced) : m.dropCompleted.Balanced :=
  h.withCores fun _ _ _ hcore => ⟨hcore.sound, hcore.misses, hcore.below⟩

theorem Balanced.dropVerdicts (h : m.Balanced) : m.dropVerdicts.Balanced :=
  h.withCores fun _ _ _ hcore =>
    ⟨⟨hcore.sound.slots, hcore.sound.outstanding, hcore.sound.single, hcore.sound.room⟩,
      hcore.misses, hcore.below⟩

/-- A machine that was reset has nothing under way. -/
theorem balanced_reset (hs : m.Shaped c resolver) (hfit : c.TagsFit) : m.reset.Balanced := by
  refine ⟨fun i core' hcore' => ?_, MissTable.wellFormed_default, rfl, fun req hreq => ?_⟩
  · have hbelow : m.reset.below i = 0 := by
      rw [below]
      show (m.switch.inputs.map fun _ => ({} : Lookup.Link))[i]?.elim 0 underway + 0 = 0
      rw [add_zero, List.getElem?_map]
      cases m.switch.inputs[i]? <;> rfl
    rw [hbelow]
    rw [reset, List.getElem?_map, Option.map_eq_some_iff] at hcore'
    obtain ⟨core, hcore, rfl⟩ := hcore'
    refine core.balanced_reset ?_
    rw [(hs.cores i core hcore).capacity]
    exact hfit.queueSize_le
  · exact absurd hreq (Multiset.notMem_zero _)

end Machine

end BoundsCheck
