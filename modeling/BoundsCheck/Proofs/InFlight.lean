import BoundsCheck.Proofs.Regular

/-!
# Accounting for what is in flight

Whoever waits for an answer in a machine waits for one lookup below, and every lookup is waited
for: a tag is in use exactly if its lookup is somewhere in the cache of the core, and a miss is
pending exactly if a lookup of its buffer is somewhere below the cache.

* `EachOnce` — those that are picked occur once, and nothing else occurs.
* `Machine.Accounted` — the accounts of all checkers and caches of a machine.
* `Drive.lookups_accounted` — they are right after any calls.
-/

set_option autoImplicit false

namespace BoundsCheck

open Lookup

/-! ## Counting -/

/-- Those that are picked occur exactly once, and nothing else occurs. -/
def EachOnce {α : Type} [DecidableEq α] (pick : α → Bool) (s : Multiset α) : Prop :=
  ∀ a, s.count a = if pick a then 1 else 0

theorem EachOnce.nodup {α : Type} [DecidableEq α] {pick : α → Bool} {s : Multiset α}
    (h : EachOnce pick s) : s.Nodup := by
  rw [Multiset.nodup_iff_count_le_one]
  intro a
  rw [h a]
  split
  · exact le_refl 1
  · exact Nat.zero_le 1

/-- The first questions of the misses are for each buffer with a pending miss, once. -/
theorem MissTable.WellFormed.eachOnce_heads {t : MissTable} (h : t.WellFormed) :
    EachOnce t.contains (t.heads.map (·.bufferId)) := by
  intro id
  rw [h.map_heads, Multiset.coe_count, h.nodup.count]
  exact if_congr contains_iff.symm rfl rfl

/-- The pending lookups carry the tags of the slots in use. -/
theorem Checker.Sound.map_tag {pending : Multiset Request} {c : Checker} (h : c.Sound pending) :
    pending.map (·.tag) = c.slots.held.map Prod.fst := by
  have hslots : c.slots.held.map (fun slot =>
      (question? c.resolve slot.1 slot.2.trace).map (·.tag)) =
        c.slots.held.map fun slot => some slot.1 := by
    refine Multiset.map_congr rfl fun slot hslot => ?_
    have hmem : question? c.resolve slot.1 slot.2.trace ∈ pending.map some := by
      rw [← h.outstanding]
      exact Multiset.mem_map_of_mem _ hslot
    obtain ⟨req, -, hreq⟩ := Multiset.mem_map.mp hmem
    obtain ⟨access, id, -, -, rfl⟩ := question?_eq_some_iff.mp hreq.symm
    rw [← hreq]
    rfl
  have hmap := congrArg (Multiset.map (Option.map (·.tag))) h.outstanding
  rw [Checker.outstanding, Multiset.map_map, Multiset.map_map] at hmap
  refine Multiset.map_injective (Option.some_injective Tag) ?_
  rw [Multiset.map_map, Multiset.map_map]
  exact hmap.symm.trans hslots

/-! ## Accounts -/

/-- The accounts of the checker and the cache of a core, given all lookups below the cache. -/
structure Core.Accounted (resolver : Resolver) (below : Multiset Request) (core : Core) :
    Prop where
  /-- Each tag in use is that of one lookup in the cache, and these carry no other tag. -/
  tags : EachOnce core.checker.slots.contains (core.l1.pending.map (·.tag))
  /-- This lookup is for the buffer of the first access of the trace in the slot. -/
  slots : ∀ req ∈ core.l1.pending, ∃ slot access,
    core.checker.slots.get? req.tag = some slot ∧ slot.trace.firstAccess? = some access ∧
      req.uuid = slot.trace.uuid ∧ req.addr = access.addr ∧
        resolver.resolve access.addr = some req.bufferId
  /-- Each buffer with a pending miss is that of one lookup below, and these are for no other. -/
  misses : EachOnce core.l1.misses.contains (below.map (·.bufferId))

/-- The accounts of all checkers and caches of a machine. -/
structure Machine.Accounted (c : Config) (resolver : Resolver) (m : Machine) : Prop where
  /-- They are right for each core. -/
  cores : ∀ i < c.cores.toNat, ∃ core, m.cores[i]? = some core ∧
    core.Accounted resolver (m.below i)
  /-- They are right for the shared cache. -/
  misses : EachOnce m.l2.misses.contains ((underway m.table.port).map (·.bufferId))

theorem Core.Balanced.accounted {c : Config} {resolver : Resolver} {below : Multiset Request}
    {core : Core} {i : Nat} (h : core.Balanced below) (hs : core.Shaped c resolver i) :
    core.Accounted resolver below := by
  refine ⟨?_, fun req hreq => ?_, ?_⟩
  · rw [h.sound.map_tag]
    exact SlotTable.count_map_fst_held h.sound.slots.capacity
  · obtain ⟨slot, hget, -, hq⟩ := h.sound.exists_slot hreq
    obtain ⟨access, id, haccess, hid, heq⟩ := Checker.question?_eq_some_iff.mp hq
    have hbuffer : req.bufferId = id := congrArg (·.bufferId) heq
    rw [hs.resolve, ← hbuffer] at hid
    exact ⟨slot, access, hget, haccess, congrArg (·.uuid) heq, congrArg (·.addr) heq, hid⟩
  · rw [h.below]
    exact h.misses.eachOnce_heads

theorem Machine.Regular.accounted {c : Config} {resolver : Resolver} {m : Machine}
    (h : m.Regular c resolver) : m.Accounted c resolver := by
  refine ⟨fun i hi => ?_, ?_⟩
  · rw [← h.shaped.length] at hi
    have hcore := List.getElem?_eq_getElem hi
    exact ⟨_, hcore, (h.balanced.cores i _ hcore).accounted (h.shaped.cores i _ hcore)⟩
  · rw [h.balanced.below]
    exact h.balanced.misses.eachOnce_heads

/-- **Everything in flight is accounted for**, whatever was asked of a machine.  In particular no
cache ever has two lookups of one buffer below it. -/
theorem Drive.lookups_accounted {c : Config} {m : Machine} {resolver : Resolver}
    (hnew : Machine.new c = .ok m) (hresolver : Resolver.ofConfig c = .ok resolver)
    (hfit : c.TagsFit) (calls : List Call) :
    ((start m).after calls).machine.Accounted c resolver ∧
      (∀ i < c.cores.toNat,
        ((((start m).after calls).machine.below i).map (·.bufferId)).Nodup) ∧
      ((underway ((start m).after calls).machine.table.port).map (·.bufferId)).Nodup := by
  have haccounted := (Drive.regular hnew hresolver hfit calls).accounted
  refine ⟨haccounted, fun i hi => ?_, haccounted.misses.nodup⟩
  obtain ⟨core, -, hcore⟩ := haccounted.cores i hi
  exact hcore.misses.nodup

/-- Two cores under the default parameters look up the same buffer, so that one question has been
merged in the shared cache. -/
theorem Drive.lookups_accounted_two_cores :
    ∃ m resolver, Machine.new { cores := 2 } = .ok m ∧
      Resolver.ofConfig { cores := 2 } = .ok resolver ∧
      ((start m).after [.push (.load 7 0xFEFFFFC8 4),
        .push { uuid := 8, coreId := 1, kind := .store, blocks := [[⟨0xFEFFFFC8, 4⟩]] },
        .cycle, .cycle, .cycle, .cycle, .cycle, .cycle]).machine.Accounted { cores := 2 }
          resolver :=
  ⟨_, _, rfl, rfl, (Drive.lookups_accounted rfl rfl (by decide) _).1⟩

end BoundsCheck
