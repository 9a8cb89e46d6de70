import Mathlib.Algebra.Group.Nat.Defs
import BoundsCheck.Machine

/-!
# Machines as they are built

A configuration that a machine can be built with is accepted.  What is checked when the machine is
built, for each part in turn, is here taken together, and the machine is written down at once.

* `Config.Accepted` — all that the checks establish.
* `Config.TagsFit` — the numbers of slots and of cores are small enough for tags to be stamped.
* `Machine.fresh` — the machine of an accepted configuration.
* `Machine.of_new` — whoever builds a machine gets this one, from an accepted configuration.
-/

set_option autoImplicit false

namespace BoundsCheck

theorem Except.ok_bind {ε α β : Type} (a : α) (f : α → Except ε β) : (.ok a >>= f) = f a := rfl

theorem Except.bind_eq_ok {ε α β : Type} {x : Except ε α} {f : α → Except ε β} {b : β} :
    (x >>= f) = .ok b ↔ ∃ a, x = .ok a ∧ f a = .ok b := by
  cases x with
  | error e => exact ⟨fun h => (nomatch h), fun ⟨_, h, _⟩ => (nomatch h)⟩
  | ok a => exact ⟨fun h => ⟨a, rfl, h⟩, fun ⟨_, h, h'⟩ => by cases h; exact h'⟩

theorem Except.map_eq_ok {ε α β : Type} {x : Except ε α} {f : α → β} {b : β} :
    x.map f = .ok b ↔ ∃ a, x = .ok a ∧ f a = b := by
  cases x with
  | error e => exact ⟨fun h => (nomatch h), fun ⟨_, h, _⟩ => (nomatch h)⟩
  | ok a => exact ⟨fun h => ⟨a, rfl, Except.ok.inj h⟩, fun ⟨_, h, h'⟩ => by cases h; cases h'; rfl⟩

theorem Except.map_eq_error {ε α β : Type} {x : Except ε α} {f : α → β} {e : ε} :
    x.map f = .error e ↔ x = .error e := by
  cases x with
  | error e' => exact ⟨fun h => congrArg _ (Except.error.inj h), fun h => by cases h; rfl⟩
  | ok a => exact ⟨fun h => (nomatch h), fun h => (nomatch h)⟩

/-! ## The checks -/

theorem checkInputs_eq_ok {inputs : Nat} {u : Unit} :
    checkInputs inputs = .ok u ↔ 0 < inputs ∧ inputs ≤ 32 := by
  rw [checkInputs, maxSwitchInputs]
  split
  · simp; omega
  · simp; omega

theorem checkCapacity_eq_ok {component : String} {capacity : UInt64} {u : Unit} :
    checkCapacity component capacity = .ok u ↔ capacity ≠ 0 := by
  rw [checkCapacity]
  split
  · rename_i h; simp [h]
  · rename_i h; simp [h]

theorem checkLatency_eq_ok {component : String} {latency : UInt64} {u : Unit} :
    checkLatency component latency = .ok u ↔ latency ≠ 0 := by
  rw [checkLatency]
  split
  · rename_i h; simp [h]
  · rename_i h; simp [h]

/-- The table has an entry for none but different buffers that are none of the known ones. -/
theorem RangeTable.checkEntries_eq_ok {entries : List RangeEntry} {known : List BufferId}
    {u : Unit} :
    checkEntries known entries = .ok u ↔
      (∀ entry ∈ entries, entry.bufferId ≠ invalidBuffer ∧ entry.bufferId ∉ known) ∧
        (entries.map (·.bufferId)).Nodup := by
  induction entries generalizing known with
  | nil => exact iff_of_true rfl ⟨fun _ hmem => absurd hmem List.not_mem_nil, List.nodup_nil⟩
  | cons first rest ih =>
    rw [checkEntries, List.forall_mem_cons, List.map_cons, List.nodup_cons]
    split
    · rename_i hid
      exact iff_of_false (fun h => nomatch h) fun h => h.1.1.1 hid
    · rename_i hid
      split
      · rename_i hknown
        rw [List.contains_iff_mem] at hknown
        exact iff_of_false (fun h => nomatch h) fun h => h.1.1.2 hknown
      · rename_i hknown
        rw [List.contains_iff_mem] at hknown
        rw [ih]
        constructor
        · rintro ⟨hall, hnodup⟩
          refine ⟨⟨⟨hid, hknown⟩, fun entry hmem => ?_⟩, fun hmem => ?_, hnodup⟩
          · exact ⟨(hall entry hmem).1, fun hk => (hall entry hmem).2 (List.mem_cons_of_mem _ hk)⟩
          · obtain ⟨entry, hentry, heq⟩ := List.mem_map.mp hmem
            exact (hall entry hentry).2 (heq ▸ List.mem_cons_self)
        · rintro ⟨⟨-, hall⟩, hfresh, hnodup⟩
          refine ⟨fun entry hmem => ⟨(hall entry hmem).1, fun hk => ?_⟩, hnodup⟩
          rcases List.mem_cons.mp hk with heq | hk
          · exact hfresh (heq ▸ List.mem_map_of_mem hmem)
          · exact (hall entry hmem).2 hk

/-- What a check wants not to be zero is positive. -/
theorem toNat_pos_of_ne_zero {n : UInt64} (h : n ≠ 0) : 0 < n.toNat :=
  Nat.pos_of_ne_zero fun hzero => h (by rwa [← UInt64.toNat_inj])

/-- A cache can be built with these parameters. -/
structure CacheConfig.Accepted (c : CacheConfig) : Prop where
  /-- It holds something. -/
  capacity : c.capacity ≠ 0
  /-- Its answers take time. -/
  hitLatency : c.hitLatency ≠ 0
  /-- Passing a question on takes time. -/
  forwardingLatency : c.forwardingLatency ≠ 0

/-- A machine can be built with these parameters. -/
structure Config.Accepted (c : Config) : Prop where
  /-- There is a core. -/
  pos : 0 < c.cores.toNat
  /-- There are at most as many cores as a switch has inputs. -/
  le : c.cores.toNat ≤ 32
  /-- A trace can be under way. -/
  queueSize : c.checker.queueSize ≠ 0
  /-- The caches of the cores can be built. -/
  l1 : c.l1.Accepted
  /-- The shared cache can be built. -/
  l2 : c.l2.Accepted
  /-- The table takes time. -/
  latency : c.table.latency ≠ 0
  /-- The switch takes time. -/
  delay : c.switch.delay ≠ 0
  /-- All entries are for buffers. -/
  ids : ∀ entry ∈ c.table.entries, entry.bufferId ≠ invalidBuffer
  /-- They are for different buffers. -/
  nodup : (c.table.entries.map (·.bufferId)).Nodup

/-- The tags of all slots leave room for the number of a core. -/
def Config.TagsFit (c : Config) : Prop :=
  c.checker.queueSize.toNat * 2 ^ TagPacking.tagShift c.cores.toNat ≤ 2 ^ 32

instance (c : Config) : Decidable c.TagsFit := Nat.decLe _ _

theorem Config.TagsFit.queueSize_le {c : Config} (h : c.TagsFit) :
    c.checker.queueSize.toNat ≤ 2 ^ 32 :=
  Nat.le_trans (Nat.le_mul_of_pos_right _ (Nat.two_pow_pos _)) h

theorem CacheConfig.accepted_of_validate {component : String} {c : CacheConfig} {u : Unit}
    (h : c.validate component = .ok u) : c.Accepted := by
  simp only [CacheConfig.validate, Except.bind_eq_ok, checkCapacity_eq_ok,
    checkLatency_eq_ok] at h
  obtain ⟨-, hcap, -, hhit, hforward⟩ := h
  exact ⟨hcap, hhit, hforward⟩

/-! ## The machine of a configuration -/

/-- An empty cache. -/
def RangeCache.fresh (name : String) (id : UInt64) (c : CacheConfig) : RangeCache where
  name := name
  id := id
  config := c
  lines := ⟨[], c.capacity.toNat, c.policy⟩

theorem RangeCache.new_eq_fresh {name : String} {id : UInt64} {c : CacheConfig}
    (h : c.capacity ≠ 0) : RangeCache.new name id c = .ok (.fresh name id c) := by
  have hne : c.capacity.toNat ≠ 0 := fun hz => h (by rwa [← UInt64.toNat_inj])
  rw [RangeCache.new, LineSet.new, if_neg hne]
  rfl

/-- The core with a number, before it has been given a trace. -/
def Core.fresh (c : Config) (resolver : Resolver) (id : Nat) : Core where
  checker := .new (UInt64.ofNat id) c.checker resolver.resolve
  l1 := .fresh ("l1_rcache[" ++ toString id ++ "]") (UInt64.ofNat id) c.l1

/-- The switch before any cycle. -/
def Switch.fresh (inputs : Nat) (c : SwitchConfig) : Switch where
  inputs := List.replicate inputs {}
  mode := modeFor c.policy inputs
  delay := c.delay
  shift := TagPacking.tagShift inputs
  stats := .ofInputs inputs

/-- The machine of an accepted configuration, before any call. -/
def Machine.fresh (c : Config) (resolver : Resolver) : Machine where
  config := c
  cores := (List.range c.cores.toNat).map (Core.fresh c resolver)
  switch := .fresh c.cores.toNat c.switch
  l2 := .fresh "l2_rcache" 0 c.l2
  table := ⟨c.table.entries, c.table.latency, {}, {}⟩

theorem Machine.newCore_eq_fresh {c : Config} (h : c.l1.capacity ≠ 0) (resolver : Resolver)
    (id : Nat) : newCore c resolver id = .ok (Core.fresh c resolver id) := by
  rw [newCore, RangeCache.new_eq_fresh h]
  rfl

theorem Machine.newCores_eq_fresh {c : Config} (h : c.l1.capacity ≠ 0) (resolver : Resolver)
    (ids : List Nat) : ids.mapM (newCore c resolver) = .ok (ids.map (Core.fresh c resolver)) := by
  have hfresh : newCore c resolver = fun id => pure (Core.fresh c resolver id) := by
    funext id
    exact newCore_eq_fresh h resolver id
  rw [hfresh, List.mapM_pure]
  rfl

theorem Machine.checked_eq_ok {α : Type} {e : Except Config.Error α} {a : α} :
    checked e = .ok a ↔ e = .ok a := by
  cases e with
  | error _ => exact ⟨fun h => (nomatch h), fun h => (nomatch h)⟩
  | ok _ => exact ⟨fun h => by cases h; rfl, fun h => by cases h; rfl⟩

theorem Machine.faultless_eq_ok {α : Type} {e : Except Fault α} {a : α} :
    faultless e = .ok a ↔ e = .ok a := by
  cases e with
  | error _ => exact ⟨fun h => (nomatch h), fun h => (nomatch h)⟩
  | ok _ => exact ⟨fun h => by cases h; rfl, fun h => by cases h; rfl⟩

theorem Config.validate_eq_ok {c : Config} {u : Unit} (h : c.validate = .ok u) :
    (0 < c.cores.toNat ∧ c.cores.toNat ≤ 32) ∧ c.checker.queueSize ≠ 0 ∧ c.l1.Accepted ∧
      c.l2.Accepted ∧ c.table.latency ≠ 0 ∧ c.switch.delay ≠ 0 := by
  simp only [Config.validate, Except.bind_eq_ok, checkInputs_eq_ok, checkCapacity_eq_ok,
    checkLatency_eq_ok] at h
  obtain ⟨_, hcores, _, hqueue, _, hl1, _, hl2, _, htable, hswitch⟩ := h
  exact ⟨hcores, hqueue, CacheConfig.accepted_of_validate hl1, CacheConfig.accepted_of_validate hl2,
    htable, hswitch⟩

theorem Switch.eq_fresh_of_new {inputs : Nat} {c : SwitchConfig} {s : Switch}
    (h : Switch.new inputs c = .ok s) : s = fresh inputs c := by
  simp only [Switch.new, Except.bind_eq_ok] at h
  obtain ⟨_, _, _, _, h⟩ := h
  cases h
  rfl

theorem RangeTable.of_ofConfig {c : TableConfig} {t : RangeTable} (h : ofConfig c = .ok t) :
    t = ⟨c.entries, c.latency, {}, {}⟩ ∧ (∀ entry ∈ c.entries, entry.bufferId ≠ invalidBuffer) ∧
      (c.entries.map (·.bufferId)).Nodup := by
  simp only [ofConfig, RangeTable.new, Except.bind_eq_ok] at h
  obtain ⟨_, _, _, hentries, h⟩ := h
  obtain ⟨hids, hnd⟩ := checkEntries_eq_ok.mp hentries
  cases h
  exact ⟨rfl, fun entry hmem => (hids entry hmem).1, hnd⟩

/-- **Whoever builds a machine has an accepted configuration** and gets its machine. -/
theorem Machine.of_new {c : Config} {m : Machine} (h : Machine.new c = .ok m) :
    c.Accepted ∧ ∃ resolver, Resolver.ofConfig c = .ok resolver ∧ m = fresh c resolver := by
  simp only [Machine.new, Except.bind_eq_ok, checked_eq_ok, faultless_eq_ok] at h
  obtain ⟨_, hvalid, resolver, hresolver, cores, hcores, switch, hswitch, l2, hl2, table, htable,
    h⟩ := h
  obtain ⟨⟨hpos, hle⟩, hqueue, hl1, hl2', hlatency, hdelay⟩ := Config.validate_eq_ok hvalid
  obtain ⟨rfl, hids, hnd⟩ := RangeTable.of_ofConfig htable
  refine ⟨⟨hpos, hle, hqueue, hl1, hl2', hlatency, hdelay, hids, hnd⟩, resolver, hresolver, ?_⟩
  rw [newCores_eq_fresh hl1.capacity] at hcores
  rw [RangeCache.new_eq_fresh hl2'.capacity] at hl2
  cases hcores
  cases hl2
  cases Switch.eq_fresh_of_new hswitch
  cases h
  rfl

end BoundsCheck
