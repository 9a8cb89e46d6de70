import Mathlib.Data.Set.Card
import BoundsCheck.Outcome
import BoundsCheck.Proofs.Slots

/-!
# What is kept under a tag

Whoever uses a slot table can keep a list of their own: what they stored last under each tag they
were given and have not given back.  The table never says anything else than this list.  What
carries over from call to call is that the table reads like the list, with the counter in step;
every answer then depends on the list alone, the tag of a new value among them, since the free slot
that is found first has the smallest tag that is not on the list.

* `SlotTable.Call`, `SlotTable.Kept` — a table in use, next to the list of its user.
* `SlotTable.WellFormed.allocate_cases` — all slots are in use, or the smallest free tag is given.
* `SlotTable.Agrees` — the table reads like the list, which is what every call preserves.
* `SlotTable.keeps_what_was_stored` — what a table in use says to the next call.
-/

set_option autoImplicit false

namespace BoundsCheck.SlotTable

variable {α : Type}

/-! ## Tables in use -/

/-- What is asked of a table. -/
inductive Call (α : Type)
  /-- To keep a value. -/
  | allocate (value : α)
  /-- To show the value under a tag. -/
  | get (tag : Tag)
  /-- To change the value under a tag. -/
  | modify (tag : Tag) (f : α → α)
  /-- To give the value under a tag back. -/
  | release (tag : Tag)
  /-- To forget everything. -/
  | clear

/-- The table that an operation leaves: a new one if it went through, and else the old one. -/
def leave {β : Type} (t : SlotTable α) :
    Except Error (β × SlotTable α) → Outcome Error (SlotTable α)
  | .ok (_, after) => .ok after
  | .error e => .fail t e

/-- The table after a call, which may have failed. -/
def call (t : SlotTable α) : Call α → Outcome Error (SlotTable α)
  | .allocate value => t.leave (t.allocate value)
  | .get tag => t.leave ((t.get tag).map (·, t))
  | .modify tag f => t.leave (t.modify tag f)
  | .release tag => t.leave (t.release tag)
  | .clear => .ok t.clear

/-- A table, and what its user stored last under each tag that is in use. -/
structure Kept (α : Type) where
  table : SlotTable α
  stored : Tag → Option α

namespace Kept

/-- A new table, under whose tags nothing was stored yet. -/
def ofCapacity (capacity : Nat) : Kept α := ⟨SlotTable.ofCapacity capacity, fun _ => none⟩

/-- What the user takes down after a call.  Of the answers only the tag of a new value is needed:
a change or a return under a tag with nothing stored leaves nothing stored there. -/
def note (k : Kept α) : Call α → Tag → Option α
  | .allocate value =>
    match k.table.allocate value with
    | .ok (tag, _) => Function.update k.stored tag (some value)
    | .error _ => k.stored
  | .get _ => k.stored
  | .modify tag f => Function.update k.stored tag ((k.stored tag).map f)
  | .release tag => Function.update k.stored tag none
  | .clear => fun _ => none

/-- The next call. -/
def step (k : Kept α) (c : Call α) : Kept α := ⟨(k.table.call c).state, k.note c⟩

/-- Several calls, one after the other. -/
def after (calls : List (Call α)) (k : Kept α) : Kept α := calls.foldl step k

end Kept

/-- The tags under which something is stored. -/
def tags (stored : Tag → Option α) : Set Tag := {tag | (stored tag).isSome}

/-- What a table of so many slots answers when this is stored under its tags. -/
structure Keeps (capacity : Nat) (stored : Tag → Option α) (t : SlotTable α) : Prop where
  /-- Only tags below the number of slots are in use, -/
  below : ∀ tag ∈ tags stored, tag.toNat < capacity
  /-- and the counter says how many, -/
  used : t.used = (tags stored).ncard
  /-- and the table knows which. -/
  contains : ∀ tag, t.contains tag = true ↔ tag ∈ tags stored
  /-- What was stored last is found under its tag. -/
  get : ∀ tag value, stored tag = some value → t.get tag = .ok value
  /-- It can be changed, and nothing else changes. -/
  modify : ∀ tag value, stored tag = some value → ∀ f, ∃ after,
    t.modify tag f = .ok (f value, after) ∧ after.get tag = .ok (f value) ∧
      (∀ other ≠ tag, after.get other = t.get other) ∧ after.used = t.used
  /-- It is handed back, and then nothing is under this tag, and one slot less is in use. -/
  release : ∀ tag value, stored tag = some value → ∃ after,
    t.release tag = .ok (value, after) ∧ after.get tag = .error (.unknownTag tag) ∧
      (∀ other ≠ tag, after.get other = t.get other) ∧ after.used + 1 = t.used
  /-- Under any other tag there is nothing to be had. -/
  unknown : ∀ tag, stored tag = none → t.get tag = .error (.unknownTag tag) ∧
    (∀ f, t.modify tag f = .error (.unknownTag tag)) ∧ t.release tag = .error (.unknownTag tag)
  /-- A new value gets the smallest tag that is not in use as long as there is one, and nothing
  else changes. -/
  allocate : (tags stored).ncard < capacity → ∀ value, ∃ tag after,
    t.allocate value = .ok (tag, after) ∧ IsLeast (tags stored)ᶜ tag ∧
      after.get tag = .ok value ∧ (∀ other ≠ tag, after.get other = t.get other) ∧
      after.used = t.used + 1
  /-- Otherwise it gets none. -/
  exhausted : capacity ≤ (tags stored).ncard → ∀ value,
    t.allocate value = .error (.exhausted capacity)
  /-- A full table is one without room for a new value. -/
  full : ∀ value, t.isFull = true ↔ ∃ e, t.allocate value = .error e
  /-- A call that fails leaves the table as it was. -/
  failed : ∀ c e, (t.call c).error? = some e → (t.call c).state = t

/-! ## Looking for a free slot -/

/-- The smallest tag without a value is given to a new one, unless there is a value in every
slot. -/
theorem WellFormed.allocate_cases {t : SlotTable α} (h : t.WellFormed) (value : α) :
    (t.allocate value = .error (.exhausted t.capacity) ∧ t.used = t.capacity ∧
        ∀ tag : Tag, tag.toNat < t.capacity → t.contains tag = true) ∨
      ∃ tag after, t.allocate value = .ok (tag, after) ∧
        ∀ other, t.get? other = none → tag ≤ other := by
  rcases hfind : t.slots.findIdx? Option.isNone with _ | index
  · left
    have hall : ∀ slot ∈ t.slots, slot.isSome := by
      simpa using List.findIdx?_eq_none_iff.mp hfind
    refine ⟨by rw [allocate, hfind], ?_, fun tag hlt => ?_⟩
    · rw [h.used, held, card_heldFrom_of_forall_isSome hall, SlotTable.capacity]
    · rw [contains, get?, List.getElem?_eq_getElem hlt, Option.join_some]
      exact hall _ (List.getElem_mem hlt)
  · right
    obtain ⟨hlt, -, hfirst⟩ := List.findIdx?_eq_some_iff_getElem.mp hfind
    refine ⟨UInt32.ofNat index, _, by rw [allocate, hfind], fun other hnone => ?_⟩
    rw [UInt32.le_iff_toNat_le, toNat_ofNat_of_lt hlt h.capacity]
    by_contra hbefore
    -- a slot before the first free one has a value
    have hlt' := Nat.lt_of_not_le hbefore
    have hother := hfirst other.toNat hlt'
    rw [get?, List.getElem?_eq_getElem (hlt'.trans hlt), Option.join_some] at hnone
    exact hother (by rw [hnone]; rfl)

/-- With all slots in use there is none for a new value. -/
theorem WellFormed.allocate_of_full {t : SlotTable α} (h : t.WellFormed)
    (hfull : t.used = t.capacity) (value : α) :
    t.allocate value = .error (.exhausted t.capacity) ∧
      ∀ tag : Tag, tag.toNat < t.capacity → t.contains tag = true := by
  obtain ⟨halloc, -, hall⟩ | ⟨tag, after, halloc, -⟩ := h.allocate_cases value
  · exact ⟨halloc, hall⟩
  · exact absurd hfull (h.used_lt_of_allocate halloc).ne

/-- If only one slot was given back, then the next value gets this one. -/
theorem WellFormed.allocate_without {t : SlotTable α} (h : t.WellFormed)
    (hfull : t.used = t.capacity) {tag : Tag} {value : α} (hget : t.get? tag = some value)
    (new : α) : ∃ after, (t.without tag).allocate new = .ok (tag, after) := by
  obtain ⟨hwf, hcap, hused, -⟩ := h.without hget
  have hall := (h.allocate_of_full hfull value).2
  obtain ⟨first, after, halloc⟩ := hwf.exists_allocate (by omega) new
  obtain ⟨hfree, hafter⟩ := get?_of_allocate hwf.capacity halloc
  refine ⟨after, ?_⟩
  have hlt : first.toNat < t.capacity := by
    rw [← hcap, ← (hwf.of_allocate halloc).2.1]
    exact toNat_lt_capacity ((hafter first).trans (if_pos rfl))
  -- the slot that was found is free now and was not before
  obtain rfl : first = tag := by
    by_contra hne
    rw [get?_without, if_neg hne] at hfree
    have hkept := hall first hlt
    rw [contains, hfree] at hkept
    exact Bool.false_ne_true hkept
  exact halloc

/-! ## The list of the user -/

theorem state_leave_of_error {β : Type} {t : SlotTable α} {e : Error}
    {answer : Except Error (β × SlotTable α)} (h : (t.leave answer).error? = some e) :
    (t.leave answer).state = t := by
  cases answer with
  | ok answer => cases h
  | error e' => rfl

/-- A call that fails leaves the table as it was. -/
theorem state_call_of_error {t : SlotTable α} {c : Call α} {e : Error}
    (h : (t.call c).error? = some e) : (t.call c).state = t := by
  cases c with
  | clear => cases h
  | _ => exact state_leave_of_error h

/-- A value changes under its own tag only. -/
theorem get?_set {t : SlotTable α} {tag : Tag} {value : α} (hget : t.get? tag = some value)
    (new : α) : (t.set tag new).get? = Function.update t.get? tag (some new) := by
  funext other
  by_cases heq : other = tag
  · rw [heq, Function.update_self, get?, SlotTable.set,
      List.getElem?_set_self (toNat_lt_capacity hget), Option.join_some]
  · have hne : tag.toNat ≠ other.toNat := fun h => heq (UInt32.toNat_inj.mp h.symm)
    rw [Function.update_of_ne heq, get?, SlotTable.set, List.getElem?_set_ne hne, get?]

/-- Changing a value takes no slot into use and gives none back. -/
theorem WellFormed.set {t : SlotTable α} (h : t.WellFormed) {tag : Tag} {value : α}
    (hget : t.get? tag = some value) (new : α) : (t.set tag new).WellFormed := by
  have hheld := held_set (getElem?_of_get? hget) (some new)
  have hcard := congrArg Multiset.card hheld
  refine ⟨?_, by simpa [SlotTable.set, SlotTable.capacity] using h.capacity⟩
  rw [Multiset.card_add, Multiset.card_add, Nat.add_comm] at hcard
  show t.used = Multiset.card (heldFrom 0 (t.slots.set tag.toNat (some new)))
  rw [h.used]
  exact Nat.add_left_cancel hcard

/-- The table reads like the list of its user. -/
structure Agrees (capacity : Nat) (stored : Tag → Option α) (t : SlotTable α) : Prop where
  /-- The counter is right. -/
  wellFormed : t.WellFormed
  /-- No slot came or went. -/
  capacity : t.capacity = capacity
  /-- What is under a tag was stored there last. -/
  get? : t.get? = stored

theorem agrees_ofCapacity {capacity : Nat} (h : capacity ≤ 2 ^ 32) :
    Agrees capacity (fun _ => none) (ofCapacity capacity : SlotTable α) where
  wellFormed := wellFormed_ofCapacity h
  capacity := by simp [SlotTable.capacity, ofCapacity]
  get? := funext (get?_ofCapacity capacity)

namespace Agrees

variable {capacity : Nat} {stored : Tag → Option α} {t : SlotTable α}

theorem allocate (h : Agrees capacity stored t) {tag : Tag} {value : α} {after : SlotTable α}
    (halloc : t.allocate value = .ok (tag, after)) :
    Agrees capacity (Function.update stored tag (some value)) after := by
  obtain ⟨hwf, hcap, -, -⟩ := h.wellFormed.of_allocate halloc
  refine ⟨hwf, hcap.trans h.capacity, funext fun other => ?_⟩
  rw [(get?_of_allocate h.wellFormed.capacity halloc).2, h.get?, Function.update_apply]

theorem set (h : Agrees capacity stored t) {tag : Tag} {value : α}
    (hstored : stored tag = some value) (new : α) :
    Agrees capacity (Function.update stored tag (some new)) (t.set tag new) := by
  have hget : t.get? tag = some value := by rw [h.get?, hstored]
  refine ⟨h.wellFormed.set hget new, ?_, by rw [get?_set hget, h.get?]⟩
  rw [← h.capacity]
  simp [SlotTable.set, SlotTable.capacity]

theorem without (h : Agrees capacity stored t) {tag : Tag} {value : α}
    (hstored : stored tag = some value) :
    Agrees capacity (Function.update stored tag none) (t.without tag) := by
  have hget : t.get? tag = some value := by rw [h.get?, hstored]
  obtain ⟨hwf, hcap, -, -⟩ := h.wellFormed.without hget
  refine ⟨hwf, hcap.trans h.capacity, funext fun other => ?_⟩
  rw [get?_without, h.get?, Function.update_apply]

/-- Whatever is asked of the table, the list of its user says what is in it. -/
theorem step {k : Kept α} (h : Agrees capacity k.stored k.table) (c : Call α) :
    Agrees capacity (k.step c).stored (k.step c).table := by
  have hnone : ∀ tag, k.stored tag = none → Function.update k.stored tag none = k.stored :=
    fun tag hstored => by rw [← hstored, Function.update_eq_self]
  cases c with
  | allocate value =>
    rcases halloc : k.table.allocate value with e | ⟨tag, after⟩
    · simpa only [Kept.step, call, leave, Kept.note, halloc, Outcome.state_fail] using h
    · simpa only [Kept.step, call, leave, Kept.note, halloc, Outcome.state_ok]
        using h.allocate halloc
  | get tag =>
    have hsame : (k.table.call (.get tag)).state = k.table := by
      rw [call]
      cases k.table.get tag with
      | error e => rfl
      | ok value => rfl
    rw [Kept.step, hsame]
    exact h
  | modify tag f =>
    rcases hstored : k.stored tag with _ | value
    · simpa only [Kept.step, call, leave, Kept.note, SlotTable.modify, h.get?, hstored,
        Option.map_none, hnone tag hstored, Outcome.state_fail] using h
    · simpa only [Kept.step, call, leave, Kept.note, SlotTable.modify, h.get?, hstored,
        Option.map_some, Outcome.state_ok] using h.set hstored (f value)
  | release tag =>
    rcases hstored : k.stored tag with _ | value
    · simpa only [Kept.step, call, leave, Kept.note, SlotTable.release, h.get?, hstored,
        hnone tag hstored, Outcome.state_fail] using h
    · simpa only [Kept.step, call, leave, Kept.note, SlotTable.release, h.get?, hstored,
        Outcome.state_ok, SlotTable.without] using h.without hstored
  | clear =>
    have hcap : k.table.capacity ≤ 2 ^ 32 := h.wellFormed.capacity
    show Agrees capacity (fun _ => none) k.table.clear
    rw [clear_eq, h.capacity]
    exact agrees_ofCapacity (h.capacity ▸ hcap)

theorem after {k : Kept α} (h : Agrees capacity k.stored k.table) (calls : List (Call α)) :
    Agrees capacity (k.after calls).stored (k.after calls).table := by
  induction calls generalizing k with
  | nil => exact h
  | cons c calls ih => exact ih (h.step c)

/-- The counter of the table counts the tags on the list. -/
theorem used (h : Agrees capacity stored t) : t.used = (tags stored).ncard := by
  have hnodup : (t.held.map Prod.fst).Nodup := by
    rw [Multiset.nodup_iff_count_le_one]
    intro tag
    rw [count_map_fst_held h.wellFormed.capacity]
    split
    · exact Nat.le_refl 1
    · exact Nat.zero_le 1
  have htags : tags stored = ↑(t.held.map Prod.fst).toFinset := by
    ext tag
    rw [Finset.mem_coe, Multiset.mem_toFinset, mem_map_fst_held_iff h.wellFormed.capacity, contains,
      h.get?]
    rfl
  rw [htags, Set.ncard_coe_finset, Multiset.toFinset_card_of_nodup hnodup, Multiset.card_map,
    h.wellFormed.used]

theorem get (h : Agrees capacity stored t) {tag : Tag} {value : α}
    (hstored : stored tag = some value) : t.get tag = .ok value := by
  rw [SlotTable.get, h.get?, hstored]

theorem unknown (h : Agrees capacity stored t) {tag : Tag} (hstored : stored tag = none) :
    t.get tag = .error (.unknownTag tag) ∧
      (∀ f, t.modify tag f = .error (.unknownTag tag)) ∧
        t.release tag = .error (.unknownTag tag) := by
  refine ⟨?_, fun f => ?_, ?_⟩
  · rw [SlotTable.get, h.get?, hstored]
  · rw [SlotTable.modify, h.get?, hstored]
  · rw [SlotTable.release, h.get?, hstored]

/-- If the list changes under one tag, so does the table. -/
theorem get_of_ne (h : Agrees capacity stored t) {tag : Tag} {new : Option α} {after : SlotTable α}
    (hafter : Agrees capacity (Function.update stored tag new) after) {other : Tag}
    (hne : other ≠ tag) : after.get other = t.get other := by
  rw [SlotTable.get, SlotTable.get, hafter.get?, Function.update_of_ne hne, h.get?]

theorem modify (h : Agrees capacity stored t) {tag : Tag} {value : α}
    (hstored : stored tag = some value) (f : α → α) :
    ∃ after, t.modify tag f = .ok (f value, after) ∧ after.get tag = .ok (f value) ∧
      (∀ other ≠ tag, after.get other = t.get other) ∧ after.used = t.used := by
  have hset := h.set hstored (f value)
  refine ⟨t.set tag (f value), ?_, hset.get (Function.update_self ..), fun other hne => ?_, rfl⟩
  · rw [SlotTable.modify, h.get?, hstored]
  · exact h.get_of_ne hset hne

theorem release (h : Agrees capacity stored t) {tag : Tag} {value : α}
    (hstored : stored tag = some value) :
    ∃ after, t.release tag = .ok (value, after) ∧ after.get tag = .error (.unknownTag tag) ∧
      (∀ other ≠ tag, after.get other = t.get other) ∧ after.used + 1 = t.used := by
  have hwithout := h.without hstored
  obtain ⟨-, -, hfewer, -⟩ := h.wellFormed.without (by rw [h.get?, hstored])
  refine ⟨t.without tag, ?_, (hwithout.unknown (Function.update_self ..)).1, fun other hne => ?_,
    hfewer⟩
  · rw [SlotTable.release, h.get?, hstored]
    rfl
  · exact h.get_of_ne hwithout hne

/-- The smallest tag that is not on the list is given to a new value, unless there are as many
tags on it as there are slots. -/
theorem allocate_cases (h : Agrees capacity stored t) (value : α) :
    (t.allocate value = .error (.exhausted capacity) ∧ t.used = capacity) ∨
      ∃ tag after, t.allocate value = .ok (tag, after) ∧ t.used < capacity ∧
        IsLeast (tags stored)ᶜ tag := by
  obtain ⟨halloc, hall, -⟩ | ⟨tag, after, halloc, hleast⟩ := h.wellFormed.allocate_cases value
  · rw [h.capacity] at halloc hall
    exact .inl ⟨halloc, hall⟩
  · have hroom := h.wellFormed.used_lt_of_allocate halloc
    have hfree := (get?_of_allocate h.wellFormed.capacity halloc).1
    rw [h.capacity] at hroom
    rw [h.get?] at hfree hleast
    refine .inr ⟨tag, after, halloc, hroom, by simp [tags, hfree], fun other hother => ?_⟩
    exact hleast other (by simpa [tags] using hother)

/-- The answers of the table are those of the list. -/
theorem keeps (h : Agrees capacity stored t) : Keeps capacity stored t where
  below := fun tag hmem => by
    obtain ⟨value, hstored⟩ := Option.isSome_iff_exists.mp hmem
    exact h.capacity ▸ toNat_lt_capacity (by rw [h.get?, hstored])
  used := h.used
  contains := fun tag => by rw [SlotTable.contains, h.get?]; rfl
  get := fun tag value => h.get
  modify := fun tag value => h.modify
  release := fun tag value => h.release
  unknown := fun tag => h.unknown
  allocate := fun hroom value => by
    rw [← h.used] at hroom
    obtain ⟨-, hall⟩ | ⟨tag, after, halloc, -, hleast⟩ := h.allocate_cases value
    · exact absurd hall hroom.ne
    · have hafter := h.allocate halloc
      exact ⟨tag, after, halloc, hleast, hafter.get (Function.update_self ..),
        fun other hne => h.get_of_ne hafter hne, (h.wellFormed.of_allocate halloc).2.2.1⟩
  exhausted := fun hfull value => by
    rw [← h.used] at hfull
    obtain ⟨halloc, -⟩ | ⟨tag, after, halloc, hroom, -⟩ := h.allocate_cases value
    · exact halloc
    · exact absurd hroom hfull.not_gt
  full := fun value => by
    rw [isFull, beq_iff_eq, h.capacity]
    obtain ⟨halloc, hall⟩ | ⟨tag, after, halloc, hroom, -⟩ := h.allocate_cases value
    · exact ⟨fun _ => ⟨_, halloc⟩, fun _ => hall⟩
    · refine ⟨fun hall => absurd hall hroom.ne, ?_⟩
      rintro ⟨e, hfail⟩
      rw [halloc] at hfail
      cases hfail
  failed := fun c e => state_call_of_error

end Agrees

/-! ## The table and the list -/

/-- A slot table keeps what is stored in it: whatever was asked of it so far, its answer to the
next call is the one its user expects, it has a tag for a new value as long as there is a slot
without one, and a call that fails does nothing. -/
theorem keeps_what_was_stored {capacity : Nat} (h : capacity ≤ 2 ^ 32) (calls : List (Call α)) :
    Keeps capacity ((Kept.ofCapacity capacity).after calls).stored
      ((Kept.ofCapacity capacity).after calls).table :=
  (agrees_ofCapacity h).after calls |>.keeps

/-- Two slots.  The first is given back twice and then taken again, a third value finds no room,
and there is no slot for the seventh tag. -/
theorem keeps_what_was_stored_in_two_slots :
    let calls : List (Call Nat) := [.allocate 5, .allocate 7, .release 0, .release 0,
      .modify 1 (· + 1), .allocate 9, .allocate 11, .release 7]
    let k := (Kept.ofCapacity 2).after calls
    2 ≤ 2 ^ 32 ∧ Keeps 2 k.stored k.table ∧ k.table = ⟨[some 9, some 8], 2⟩ ∧
      k.stored 0 = some 9 ∧ k.stored 1 = some 8 ∧ k.stored 7 = none := by
  intro calls k
  exact ⟨by decide, keeps_what_was_stored (by decide) calls, by decide, by decide, by decide,
    by decide⟩

end BoundsCheck.SlotTable
