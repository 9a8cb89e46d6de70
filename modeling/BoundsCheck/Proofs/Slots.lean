import Mathlib.Algebra.Order.Group.Multiset
import Mathlib.Tactic.Abel
import BoundsCheck.SlotTable

/-!
# What a slot table keeps

A slot table is a finite map from tags to values.  Here it is seen as the multiset of its values,
each with its tag, and every operation adds or takes away one of them.

* `SlotTable.held` — the values with their tags.
* `SlotTable.WellFormed` — the counter is right and every slot can be named by a tag.
* `SlotTable.WellFormed.exists_allocate` — there is a free tag as long as not all slots are in use.
* `SlotTable.held_of_get?` — what is under a tag is held exactly once.
-/

set_option autoImplicit false

namespace BoundsCheck.SlotTable

variable {α : Type}

/-- The values in some neighbouring slots, the first of which has the number `first`, each with its
tag. -/
def heldFrom (first : Nat) (slots : List (Option α)) : Multiset (Tag × α) :=
  ↑((slots.zipIdx first).filterMap fun slot => slot.1.map (UInt32.ofNat slot.2, ·))

/-- The values a table keeps, each with its tag. -/
def held (t : SlotTable α) : Multiset (Tag × α) := heldFrom 0 t.slots

/-- The counter says how many slots are in use, and there are no more slots than tags. -/
structure WellFormed (t : SlotTable α) : Prop where
  /-- The counter is right. -/
  used : t.used = t.held.card
  /-- Every slot can be named by a tag. -/
  capacity : t.capacity ≤ 2 ^ 32

theorem heldFrom_append (first : Nat) (before after : List (Option α)) :
    heldFrom first (before ++ after)
      = heldFrom first before + heldFrom (first + before.length) after := by
  simp [heldFrom, List.zipIdx_append, ← Multiset.coe_add]

theorem heldFrom_cons (first : Nat) (slot : Option α) (after : List (Option α)) :
    heldFrom first (slot :: after)
      = ↑(slot.map (UInt32.ofNat first, ·)).toList + heldFrom (first + 1) after := by
  cases slot <;> simp [heldFrom]

/-- What a slot keeps, and what all others do. -/
theorem heldFrom_split (before after : List (Option α)) (slot : Option α) :
    heldFrom 0 (before ++ slot :: after)
      = ↑(slot.map (UInt32.ofNat before.length, ·)).toList
        + heldFrom 0 (before ++ none :: after) := by
  simp only [heldFrom_append, heldFrom_cons, Nat.zero_add, Option.map_none, Option.toList_none,
    Multiset.coe_nil]
  abel

/-- Changing one slot changes what is held by the old and the new value of this slot. -/
theorem held_set {slots : List (Option α)} {index : Nat} {old : Option α}
    (h : slots[index]? = some old) (new : Option α) :
    heldFrom 0 slots + ↑(new.map (UInt32.ofNat index, ·)).toList
      = ↑(old.map (UInt32.ofNat index, ·)).toList + heldFrom 0 (slots.set index new) := by
  obtain ⟨hlt, hget⟩ := List.getElem?_eq_some_iff.mp h
  have hlen : (slots.take index).length = index := by rw [List.length_take]; omega
  have hsplit : slots = slots.take index ++ old :: slots.drop (index + 1) := by
    rw [← hget, List.cons_getElem_drop_succ, List.take_append_drop]
  have hset : slots.set index new = slots.take index ++ new :: slots.drop (index + 1) :=
    List.set_eq_take_append_cons_drop .. |>.trans (if_pos hlt)
  have hold := heldFrom_split (slots.take index) (slots.drop (index + 1)) old
  have hnew := heldFrom_split (slots.take index) (slots.drop (index + 1)) new
  rw [← hsplit, hlen] at hold
  rw [hlen] at hnew
  rw [hset, hold, hnew]
  abel

/-! ## Reading -/

theorem toNat_ofNat_of_lt {index capacity : Nat} (h : index < capacity) (hcap : capacity ≤ 2 ^ 32) :
    (UInt32.ofNat index).toNat = index :=
  UInt32.toNat_ofNat_of_lt' (Nat.lt_of_lt_of_le h hcap)

theorem getElem?_of_get? {t : SlotTable α} {tag : Tag} {value : α} (h : t.get? tag = some value) :
    t.slots[tag.toNat]? = some (some value) := by
  rwa [get?, Option.join_eq_some_iff] at h

/-- What is under a tag is held under this tag, and all else beside it. -/
theorem held_of_get? {t : SlotTable α} {tag : Tag} {value : α} (h : t.get? tag = some value) :
    t.held = {(tag, value)} + heldFrom 0 (t.slots.set tag.toNat none) := by
  simpa [held] using held_set (getElem?_of_get? h) none

theorem get?_of_mem_held {t : SlotTable α} (hcap : t.capacity ≤ 2 ^ 32) {tag : Tag} {value : α}
    (h : (tag, value) ∈ t.held) : t.get? tag = some value := by
  rw [held, heldFrom, Multiset.mem_coe, List.mem_filterMap] at h
  obtain ⟨⟨slot, index⟩, hmem, hslot⟩ := h
  obtain ⟨kept, rfl, heq⟩ := Option.map_eq_some_iff.mp hslot
  rw [Prod.mk.injEq] at heq
  obtain ⟨rfl, rfl⟩ := heq
  have hget : t.slots[index]? = some (some kept) := by
    rwa [List.mem_zipIdx_iff_getElem?] at hmem
  have hlt : index < t.capacity := (List.getElem?_eq_some_iff.mp hget).1
  rw [get?, toNat_ofNat_of_lt hlt hcap, hget, Option.join_some]

theorem mem_held_iff {t : SlotTable α} (hcap : t.capacity ≤ 2 ^ 32) {tag : Tag} {value : α} :
    (tag, value) ∈ t.held ↔ t.get? tag = some value := by
  refine ⟨get?_of_mem_held hcap, fun h => ?_⟩
  rw [held_of_get? h, Multiset.mem_add]
  exact .inl (Multiset.mem_singleton_self _)

theorem toNat_lt_capacity {t : SlotTable α} {tag : Tag} {value : α} (h : t.get? tag = some value) :
    tag.toNat < t.capacity :=
  (List.getElem?_eq_some_iff.mp (getElem?_of_get? h)).1

theorem mem_map_fst_held_iff {t : SlotTable α} (hcap : t.capacity ≤ 2 ^ 32) {tag : Tag} :
    tag ∈ t.held.map Prod.fst ↔ t.contains tag = true := by
  rw [Multiset.mem_map, contains, Option.isSome_iff_exists]
  constructor
  · rintro ⟨⟨tag, value⟩, hmem, rfl⟩
    exact ⟨value, get?_of_mem_held hcap hmem⟩
  · rintro ⟨value, hget⟩
    exact ⟨(tag, value), (mem_held_iff hcap).mpr hget, rfl⟩

/-- A tag is held once if a value is kept under it, and else not at all. -/
theorem count_map_fst_held {t : SlotTable α} (hcap : t.capacity ≤ 2 ^ 32) (tag : Tag) :
    (t.held.map Prod.fst).count tag = if t.contains tag then 1 else 0 := by
  rcases hget : t.get? tag with _ | value
  · have hc : t.contains tag = false := by simp [contains, hget]
    rw [hc, if_neg Bool.false_ne_true, Multiset.count_eq_zero, mem_map_fst_held_iff hcap, hc]
    exact Bool.false_ne_true
  · have hc : t.contains tag = true := by simp [contains, hget]
    -- the other slots are those of a table without a value under the tag
    let others : SlotTable α := ⟨t.slots.set tag.toNat none, t.used - 1⟩
    have hothers : others.get? tag = none := by
      simp [others, get?, List.getElem?_set_self (toNat_lt_capacity hget)]
    have hcap' : others.capacity ≤ 2 ^ 32 := by simpa [others, capacity] using hcap
    have hcount : (others.held.map Prod.fst).count tag = 0 := by
      rw [Multiset.count_eq_zero, mem_map_fst_held_iff hcap', contains, hothers]
      exact Bool.false_ne_true
    rw [hc, if_pos rfl, held_of_get? hget, Multiset.map_add, Multiset.map_singleton,
      Multiset.count_add, Multiset.count_singleton_self]
    show 1 + (others.held.map Prod.fst).count tag = 1
    rw [hcount]

/-! ## Taking slots into use and giving them back -/

theorem held_ofCapacity (capacity : Nat) : (ofCapacity capacity : SlotTable α).held = 0 := by
  have hnil : ∀ first, heldFrom first (List.replicate capacity (none : Option α)) = 0 := by
    induction capacity with
    | zero => intro first; rfl
    | succ n ih =>
      intro first
      rw [List.replicate_succ, heldFrom_cons, ih]
      rfl
  exact hnil 0

theorem wellFormed_ofCapacity {capacity : Nat} (h : capacity ≤ 2 ^ 32) :
    (ofCapacity capacity : SlotTable α).WellFormed :=
  ⟨by rw [held_ofCapacity]; rfl, by simpa [ofCapacity, SlotTable.capacity] using h⟩

theorem get?_ofCapacity (capacity : Nat) (tag : Tag) :
    (ofCapacity capacity : SlotTable α).get? tag = none := by
  rw [get?, ofCapacity, List.getElem?_replicate]
  split
  · rfl
  · rfl

theorem clear_eq (t : SlotTable α) : t.clear = ofCapacity t.capacity := by
  simp [clear, ofCapacity, capacity]

/-- A slot that keeps something is in use. -/
theorem WellFormed.used_pos {t : SlotTable α} (h : t.WellFormed) {tag : Tag} {value : α}
    (hget : t.get? tag = some value) : 0 < t.used := by
  rw [h.used, Multiset.card_pos_iff_exists_mem]
  exact ⟨_, (mem_held_iff h.capacity).mpr hget⟩

/-- A table with nothing in use holds nothing. -/
theorem WellFormed.held_of_isEmpty {t : SlotTable α} (h : t.WellFormed)
    (hempty : t.isEmpty = true) : t.held = 0 := by
  rw [isEmpty, beq_iff_eq, h.used] at hempty
  exact Multiset.card_eq_zero.mp hempty

theorem card_heldFrom_of_forall_isSome {slots : List (Option α)}
    (h : ∀ slot ∈ slots, slot.isSome) (first : Nat) :
    (heldFrom first slots).card = slots.length := by
  induction slots generalizing first with
  | nil => rfl
  | cons slot slots ih =>
    obtain ⟨value, rfl⟩ := Option.isSome_iff_exists.mp (h slot List.mem_cons_self)
    have hrest := ih fun other hmem => h other (List.mem_cons_of_mem _ hmem)
    rw [heldFrom_cons, Multiset.card_add, hrest]
    simp [Nat.add_comm]

/-- There is a free tag as long as not all slots are in use. -/
theorem WellFormed.exists_allocate {t : SlotTable α} (h : t.WellFormed)
    (hroom : t.used < t.capacity) (value : α) :
    ∃ tag slots, t.allocate value = .ok (tag, slots) := by
  rcases hfind : t.slots.findIdx? Option.isNone with _ | index
  · -- all slots in use contradicts the counter
    exfalso
    have hall : ∀ slot ∈ t.slots, slot.isSome := by
      simpa using List.findIdx?_eq_none_iff.mp hfind
    rw [h.used, held, card_heldFrom_of_forall_isSome hall] at hroom
    exact Nat.lt_irrefl _ hroom
  · exact ⟨_, _, by rw [allocate, hfind]⟩

/-- The tag that was free holds the new value, and all else is held as before. -/
theorem WellFormed.of_allocate {t slots : SlotTable α} (h : t.WellFormed) {tag : Tag} {value : α}
    (halloc : t.allocate value = .ok (tag, slots)) :
    slots.WellFormed ∧ slots.capacity = t.capacity ∧ slots.used = t.used + 1 ∧
      slots.held = t.held + {(tag, value)} := by
  rw [allocate] at halloc
  split at halloc
  · cases halloc
  · rename_i index hfind
    cases halloc
    obtain ⟨hlt, hnone, -⟩ := List.findIdx?_eq_some_iff_getElem.mp hfind
    have hget : t.slots[index]? = some none := by
      rw [List.getElem?_eq_getElem hlt, Option.isNone_iff_eq_none.mp hnone]
    have hheld : heldFrom 0 (t.slots.set index (some value))
        = t.held + {(UInt32.ofNat index, value)} := by
      simpa [held, Multiset.add_comm] using (held_set hget (some value)).symm
    refine ⟨⟨?_, ?_⟩, ?_, rfl, hheld⟩
    · show t.used + 1 = Multiset.card (heldFrom 0 (t.slots.set index (some value)))
      rw [hheld, Multiset.card_add, Multiset.card_singleton, h.used]
    · simpa [SlotTable.capacity] using h.capacity
    · simp [SlotTable.capacity]

/-- The table after the slot of a tag was given back. -/
def without (t : SlotTable α) (tag : Tag) : SlotTable α :=
  ⟨t.slots.set tag.toNat none, t.used - 1⟩

/-- Giving a slot back takes its value, and nothing else, out of the table. -/
theorem WellFormed.without {t : SlotTable α} (h : t.WellFormed) {tag : Tag} {value : α}
    (hget : t.get? tag = some value) :
    (t.without tag).WellFormed ∧ (t.without tag).capacity = t.capacity ∧
      (t.without tag).used + 1 = t.used ∧ t.held = {(tag, value)} + (t.without tag).held := by
  have hheld := held_of_get? hget
  refine ⟨⟨?_, ?_⟩, ?_, Nat.sub_add_cancel (h.used_pos hget), hheld⟩
  · show t.used - 1 = Multiset.card (heldFrom 0 (t.slots.set tag.toNat none))
    rw [h.used, hheld, Multiset.card_add, Multiset.card_singleton, Nat.add_sub_cancel_left]
  · simpa [SlotTable.without, SlotTable.capacity] using h.capacity
  · simp [SlotTable.without, SlotTable.capacity]

/-- No more slots are in use than there are. -/
theorem WellFormed.used_le {t : SlotTable α} (h : t.WellFormed) : t.used ≤ t.capacity := by
  rw [h.used, held, heldFrom, Multiset.coe_card]
  exact (List.length_filterMap_le _ _).trans_eq List.length_zipIdx

/-- Whoever gets a slot found one free. -/
theorem WellFormed.used_lt_of_allocate {t slots : SlotTable α} (h : t.WellFormed) {tag : Tag}
    {value : α} (halloc : t.allocate value = .ok (tag, slots)) : t.used < t.capacity := by
  obtain ⟨hwf, hcap, hused, -⟩ := h.of_allocate halloc
  have hle := hwf.used_le
  omega

/-- Nothing but the slot that was given back changes. -/
theorem get?_without (t : SlotTable α) (tag other : Tag) :
    (t.without tag).get? other = if other = tag then none else t.get? other := by
  by_cases heq : other = tag
  · rw [if_pos heq, heq, get?, without, List.getElem?_set_self']
    rcases t.slots[tag.toNat]? with _ | slot
    · rfl
    · rfl
  · have hne : tag.toNat ≠ other.toNat := fun h => heq (UInt32.toNat_inj.mp h.symm)
    rw [if_neg heq, get?, without, List.getElem?_set_ne hne, get?]

/-- Nothing but the slot that was taken into use changes, and that was free. -/
theorem get?_of_allocate {t slots : SlotTable α} (hcap : t.capacity ≤ 2 ^ 32) {tag : Tag}
    {value : α} (halloc : t.allocate value = .ok (tag, slots)) :
    t.get? tag = none ∧
      ∀ other, slots.get? other = if other = tag then some value else t.get? other := by
  rw [allocate] at halloc
  split at halloc
  · cases halloc
  · rename_i index hfind
    cases halloc
    obtain ⟨hlt, hnone, -⟩ := List.findIdx?_eq_some_iff_getElem.mp hfind
    have hindex := toNat_ofNat_of_lt hlt hcap
    refine ⟨?_, fun other => ?_⟩
    · rw [get?, hindex, List.getElem?_eq_getElem hlt, Option.isNone_iff_eq_none.mp hnone,
        Option.join_some]
    · by_cases heq : other = UInt32.ofNat index
      · rw [if_pos heq, heq, get?, hindex, List.getElem?_set_self hlt, Option.join_some]
      · have hne : index ≠ other.toNat := fun h =>
          heq (UInt32.toNat_inj.mp (h.symm.trans hindex.symm))
        rw [if_neg heq, get?, List.getElem?_set_ne hne, get?]

/-- A value that was just changed is given back as it was changed. -/
theorem release_of_modify {t : SlotTable α} {tag : Tag} {value : α}
    (hget : t.get? tag = some value) (f : α → α) :
    t.modify tag f = .ok (f value, t.set tag (f value)) ∧
      (t.set tag (f value)).release tag = .ok (f value, t.without tag) := by
  have hset : (t.set tag (f value)).get? tag = some (f value) := by
    simp [SlotTable.set, get?, List.getElem?_set_self (toNat_lt_capacity hget)]
  refine ⟨by rw [modify, hget], ?_⟩
  rw [release, hset]
  simp [SlotTable.set, SlotTable.without]

end BoundsCheck.SlotTable
