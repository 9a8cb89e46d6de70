import Mathlib.Data.List.Induction
import Mathlib.Order.Bounds.Basic
import BoundsCheck.Proofs.Lines

/-!
# The order of replacement

A set of entries remembers in which order its entries have to give way, but not why.  Here the calls
made on a set are numbered, and the order is read off that history: an entry is touched when it
comes in and, under `lru`, whenever it is used.  The entries stand in the order in which they were
last touched, so the one in front is always the one that was not touched for the longest time.

* `LineSet.after` — a set after some calls.
* `LineSet.LastTouched` — the number of the call that touched an entry last.
* `LineSet.Given` — the entry that was brought in for its buffer last.
* `LineSet.Regular.call` — a call keeps the entries in order.
* `LineSet.in_touch_order` — they are in order after any calls, and what each call does follows.
-/

set_option autoImplicit false

namespace BoundsCheck

namespace LineSet

/-! ## Calls and their history -/

/-- A call on a set of entries. -/
inductive Call
  | insert (entry : RangeEntry)
  | access (id : BufferId)
  | contains (id : BufferId)
  | clear
deriving DecidableEq, Repr

/-- The set after a call. -/
def call (s : LineSet) : Call → LineSet
  | .insert entry => (s.insert entry).2
  | .access id => (s.access id).2
  | .contains _ => s
  | .clear => s.clear

/-- The set after several calls, one after the other. -/
def after (calls : List Call) (s : LineSet) : LineSet := calls.foldl call s

/-- The call brings the entry in: none of its buffer was held. -/
def Brings (entry : RangeEntry) (s : LineSet) (c : Call) : Prop :=
  c = .insert entry ∧ s.contains entry.bufferId = false

/-- The call finds the entry of the buffer. -/
def Uses (id : BufferId) (s : LineSet) (c : Call) : Prop :=
  c = .access id ∧ s.contains id = true

/-- The call brings an entry of the buffer in. -/
def Renews (id : BufferId) (s : LineSet) (c : Call) : Prop :=
  ∃ entry : RangeEntry, entry.bufferId = id ∧ Brings entry s c

/-- The call brings an entry of the buffer in or, if that matters, uses it. -/
def Touches (id : BufferId) (s : LineSet) (c : Call) : Prop :=
  Renews id s c ∨ s.policy = .lru ∧ Uses id s c

/-- The call with this number was of the given kind, in the state it was made in. -/
def Happened (empty : LineSet) (calls : List Call) (kind : LineSet → Call → Prop) (time : Nat) :
    Prop :=
  ∃ c, calls[time]? = some c ∧ kind (empty.after (calls.take time)) c

/-- The number of the last call that touched the entry of a buffer. -/
def LastTouched (empty : LineSet) (calls : List Call) (id : BufferId) (time : Nat) : Prop :=
  IsGreatest {t | Happened empty calls (Touches id) t} time

/-- The entry is the one that was brought in last for its buffer. -/
def Given (empty : LineSet) (calls : List Call) (entry : RangeEntry) : Prop :=
  ∃ time, IsGreatest {t | Happened empty calls (Renews entry.bufferId) t} time ∧
    Happened empty calls (Brings entry) time

/-- The set `s` is what the calls have made of the empty set, and its entries are in the order in
which they were last touched. -/
structure InTouchOrder (capacity : Nat) (policy : ReplacementPolicy) (empty : LineSet)
    (calls : List Call) (s : LineSet) : Prop where
  /-- The policy is the one the set was made with. -/
  policy_eq : s.policy = policy
  /-- No buffer is held twice. -/
  nodup : s.ids.Nodup
  /-- No more entries are held than there is room for. -/
  length_le : s.ids.length ≤ capacity
  /-- All entries were touched. -/
  touched : ∀ id ∈ s.ids, ∃ time, LastTouched empty calls id time
  /-- The entries stand in the order in which they were last touched. -/
  ordered : s.ids.Pairwise fun id other => ∀ time later,
    LastTouched empty calls id time → LastTouched empty calls other later → time < later
  /-- A buffer is said to be held if it is listed. -/
  contains_iff : ∀ id, s.contains id = true ↔ id ∈ s.ids
  /-- What is looked up and held is what was brought in for the buffer. -/
  access_held : ∀ id ∈ s.ids, ∃ entry,
    (s.access id).1 = some entry ∧ entry.bufferId = id ∧ Given empty calls entry
  /-- What is looked up and not held is not found, and nothing changes. -/
  access_missing : ∀ id ∉ s.ids, s.access id = (none, s)
  /-- Under `fifo` nothing changes when an entry is used. -/
  access_fifo : policy = .fifo → ∀ id, (s.access id).2 = s
  /-- Under `lru` an entry that is used goes to the back. -/
  access_lru : policy = .lru → ∀ id ∈ s.ids, (s.access id).2.ids = s.ids.erase id ++ [id]
  /-- An entry whose buffer is held already is not taken in, and nothing changes. -/
  insert_held : ∀ entry : RangeEntry, entry.bufferId ∈ s.ids → s.insert entry = (none, s)
  /-- As long as there is room, a new entry goes to the back and none gives way. -/
  insert_room : ∀ entry : RangeEntry, entry.bufferId ∉ s.ids → s.ids.length ≠ capacity →
    (s.insert entry).1 = none ∧ (s.insert entry).2.ids = s.ids ++ [entry.bufferId]
  /-- Without room, a new entry goes to the back and the one that was touched first gives way. -/
  insert_full : ∀ entry : RangeEntry, entry.bufferId ∉ s.ids → s.ids.length = capacity →
    ∃ victim, (s.insert entry).1 = some victim ∧ victim.bufferId ∈ s.ids ∧
      Given empty calls victim ∧
      (∀ id ∈ s.ids, id ≠ victim.bufferId → ∀ time later,
        LastTouched empty calls victim.bufferId time → LastTouched empty calls id later →
          time < later) ∧
      (s.insert entry).2.ids = s.ids.erase victim.bufferId ++ [entry.bufferId]
  /-- Asking whether a buffer is held changes nothing. -/
  call_contains : ∀ id, s.call (.contains id) = s
  /-- A cleared set holds nothing. -/
  ids_clear : s.clear.ids = []

/-! ## One more call -/

variable {empty s : LineSet} {calls : List Call} {c : Call} {kind : LineSet → Call → Prop}
  {entry : RangeEntry} {id : BufferId} {time : Nat}

theorem after_concat (calls : List Call) (c : Call) (s : LineSet) :
    s.after (calls ++ [c]) = (s.after calls).call c := by
  simp [after]

/-- What has happened after one more call has happened before or just now. -/
theorem happened_concat : Happened empty (calls ++ [c]) kind time ↔
    Happened empty calls kind time ∨ time = calls.length ∧ kind (empty.after calls) c := by
  rcases Nat.lt_trichotomy time calls.length with hlt | rfl | hgt
  · simp [Happened, List.getElem?_append_left hlt, List.take_append_of_le_length hlt.le, hlt.ne]
  · simp [Happened]
  · have hnone : (calls ++ [c])[time]? = none := by
      rw [List.getElem?_eq_none_iff, List.length_append, List.length_singleton]
      omega
    have hnone' : calls[time]? = none := List.getElem?_eq_none_iff.mpr hgt.le
    simp [Happened, hnone, hnone', hgt.ne']

theorem Happened.lt_length (h : Happened empty calls kind time) : time < calls.length := by
  obtain ⟨c, hc, -⟩ := h
  exact (List.getElem?_eq_some_iff.mp hc).1

/-- What happens just now has happened last. -/
theorem last_concat_of (h : kind (empty.after calls) c) :
    IsGreatest {t | Happened empty (calls ++ [c]) kind t} calls.length := by
  constructor
  · exact happened_concat.mpr (.inr ⟨rfl, h⟩)
  · intro t ht
    rcases happened_concat.mp ht with hbefore | ⟨rfl, -⟩
    · exact hbefore.lt_length.le
    · exact Nat.le_refl _

/-- What does not happen just now has happened last when it did before. -/
theorem last_concat_of_not (h : ¬ kind (empty.after calls) c) :
    IsGreatest {t | Happened empty (calls ++ [c]) kind t} time
      ↔ IsGreatest {t | Happened empty calls kind t} time := by
  have hsame : {t | Happened empty (calls ++ [c]) kind t} = {t | Happened empty calls kind t} := by
    ext t
    simp [happened_concat, h]
  rw [hsame]

/-- An entry that is brought in is the one given. -/
theorem given_concat_of (h : Brings entry (empty.after calls) c) :
    Given empty (calls ++ [c]) entry :=
  ⟨calls.length, last_concat_of ⟨entry, rfl, h⟩, happened_concat.mpr (.inr ⟨rfl, h⟩)⟩

/-- An entry stays the one given until another one of its buffer is brought in. -/
theorem Given.concat (h : Given empty calls entry)
    (hnot : ¬ Renews entry.bufferId (empty.after calls) c) : Given empty (calls ++ [c]) entry := by
  obtain ⟨time, hlast, hbrings⟩ := h
  exact ⟨time, (last_concat_of_not hnot).mpr hlast, happened_concat.mpr (.inl hbrings)⟩

/-! ## What a call does -/

@[simp] theorem policy_add (s : LineSet) (entry : RangeEntry) :
    (s.add entry).policy = s.policy := by
  rw [add]
  split
  · rfl
  · split <;> rfl

@[simp] theorem policy_touch (s : LineSet) (id : BufferId) : (s.touch id).policy = s.policy := by
  rw [touch]
  split
  · rfl
  · split <;> rfl

theorem policy_call (s : LineSet) (c : Call) : (s.call c).policy = s.policy := by
  cases c with
  | insert entry => exact policy_add s entry
  | access id => exact policy_touch s id
  | contains id => rfl
  | clear => rfl

theorem capacity_call (s : LineSet) (c : Call) : (s.call c).capacity = s.capacity := by
  cases c with
  | insert entry => exact capacity_add s entry
  | access id => exact capacity_touch s id
  | contains id => rfl
  | clear => rfl

theorem policy_after (calls : List Call) (s : LineSet) : (s.after calls).policy = s.policy := by
  induction calls using List.reverseRecOn with
  | nil => rfl
  | append_singleton calls c ih => rw [after_concat, policy_call, ih]

theorem capacity_after (calls : List Call) (s : LineSet) :
    (s.after calls).capacity = s.capacity := by
  induction calls using List.reverseRecOn with
  | nil => rfl
  | append_singleton calls c ih => rw [after_concat, capacity_call, ih]

theorem contains_eq_false_iff : s.contains id = false ↔ id ∉ s.ids := by
  rw [← Bool.not_eq_true, contains_iff]

/-- An entry whose buffer is held already is not taken in. -/
theorem insert_of_held (h : entry.bufferId ∈ s.ids) : s.insert entry = (none, s) := by
  simp [insert, victim?, add, contains_iff.mpr h]

/-- As long as there is room, a new entry goes to the back. -/
theorem insert_of_room (h : entry.bufferId ∉ s.ids) (hroom : s.size < s.capacity) :
    s.insert entry = (none, { s with lines := s.lines ++ [entry] }) := by
  have hfull : s.isFull = false := decide_eq_false (Nat.not_le.mpr hroom)
  simp [insert, victim?, add, contains_eq_false_iff.mpr h, hfull]

/-- Without room, the entry in front gives way. -/
theorem insert_of_full (h : entry.bufferId ∉ s.ids) (hfull : s.capacity ≤ s.size) :
    s.insert entry = (s.lines.head?, { s with lines := s.lines.tail ++ [entry] }) := by
  have hfull : s.isFull = true := decide_eq_true hfull
  simp [insert, victim?, add, contains_eq_false_iff.mpr h, hfull]

/-- What is not held is not found. -/
theorem access_of_not_held (h : id ∉ s.ids) : s.access id = (none, s) := by
  rw [← get?_eq_none_iff] at h
  simp only [access, touch, h]
  split <;> rfl

/-- Under `fifo` an entry that is used stays where it is. -/
theorem access_of_fifo (h : s.policy = .fifo) (id : BufferId) : s.access id = (s.get? id, s) := by
  simp [access, touch, h]

/-- Under `lru` an entry that is used goes to the back. -/
theorem access_of_lru (h : s.policy = .lru) (hget : s.get? id = some entry) :
    s.access id
      = (some entry, { s with lines := s.lines.filter (·.bufferId != id) ++ [entry] }) := by
  simp [access, touch, h, hget]

theorem touches_insert {other : RangeEntry} :
    Touches id s (.insert other) ↔ other.bufferId = id ∧ s.contains id = false := by
  constructor
  · rintro (⟨entry, rfl, hcall, hnot⟩ | ⟨-, hcall, -⟩)
    · cases hcall
      exact ⟨rfl, hnot⟩
    · cases hcall
  · rintro ⟨rfl, hnot⟩
    exact .inl ⟨other, rfl, rfl, hnot⟩

theorem touches_access {other : BufferId} :
    Touches id s (.access other) ↔ other = id ∧ s.policy = .lru ∧ s.contains id = true := by
  simp [Touches, Renews, Brings, Uses, and_left_comm]

/-- A call takes entries away without touching those that stay, or puts the entry that it touches
behind all that stay. -/
theorem call_cases (s : LineSet) (c : Call) :
    ((s.call c).lines.Sublist s.lines ∧ ∀ other ∈ (s.call c).lines, ¬ Touches other.bufferId s c) ∨
    ∃ kept entry, kept.Sublist s.lines ∧ (s.call c).lines = kept ++ [entry] ∧
      (∀ id, Touches id s c ↔ id = entry.bufferId) ∧
      (∀ other ∈ kept, other.bufferId ≠ entry.bufferId) ∧
      (Brings entry s c ∨ entry ∈ s.lines ∧ ∀ id, ¬ Renews id s c) := by
  cases c with
  | insert entry =>
    by_cases hheld : entry.bufferId ∈ s.ids
    · refine .inl ⟨?_, fun other _ htouches => ?_⟩
      · rw [call, insert_of_held hheld]
      · obtain ⟨hid, hnot⟩ := touches_insert.mp htouches
        exact contains_eq_false_iff.mp hnot (hid ▸ hheld)
    · have hnot : s.contains entry.bufferId = false := contains_eq_false_iff.mpr hheld
      have hfresh : ∀ other ∈ s.lines, other.bufferId ≠ entry.bufferId := by
        intro other hmem heq
        exact hheld (heq ▸ List.mem_map_of_mem hmem)
      have htouches : ∀ id, Touches id s (.insert entry) ↔ id = entry.bufferId := by
        intro id
        rw [touches_insert]
        constructor
        · rintro ⟨rfl, -⟩
          rfl
        · rintro rfl
          exact ⟨rfl, hnot⟩
      right
      by_cases hfull : s.capacity ≤ s.size
      · refine ⟨s.lines.tail, entry, List.tail_sublist _, ?_, htouches, ?_, .inl ⟨rfl, hnot⟩⟩
        · rw [call, insert_of_full hheld hfull]
        · intro other hmem
          exact hfresh other (List.mem_of_mem_tail hmem)
      · refine ⟨s.lines, entry, List.Sublist.refl _, ?_, htouches, hfresh, .inl ⟨rfl, hnot⟩⟩
        rw [call, insert_of_room hheld (Nat.not_le.mp hfull)]
  | access id =>
    have hrenews : ∀ other, ¬ Renews other s (.access id) := by simp [Renews, Brings]
    cases hpolicy : s.policy with
    | fifo =>
      left
      simp [call, access_of_fifo hpolicy, touches_access, hpolicy]
    | lru =>
      cases hget : s.get? id with
      | none =>
        left
        have hmissing : id ∉ s.ids := get?_eq_none_iff.mp hget
        refine ⟨by rw [call, access_of_not_held hmissing], fun other _ htouches => ?_⟩
        obtain ⟨rfl, -, hheld⟩ := touches_access.mp htouches
        exact hmissing (contains_iff.mp hheld)
      | some entry =>
        have hid : entry.bufferId = id := bufferId_of_get? hget
        have hheld : s.contains id = true := by simp [contains, hget]
        refine .inr ⟨s.lines.filter (·.bufferId != id), entry, List.filter_sublist, ?_, ?_, ?_,
          .inr ⟨List.mem_of_find?_eq_some hget, hrenews⟩⟩
        · rw [call, access_of_lru hpolicy hget]
        · intro other
          rw [touches_access, hid]
          constructor
          · rintro ⟨rfl, -⟩
            rfl
          · rintro rfl
            exact ⟨rfl, hpolicy, hheld⟩
        · intro other hmem
          simpa [hid] using (List.mem_filter.mp hmem).2
  | contains id =>
    left
    simp [call, Touches, Renews, Brings, Uses]
  | clear =>
    left
    simp [call, LineSet.clear]

/-! ## Entries in order -/

/-- What is kept of a set of entries whatever calls are made. -/
structure Regular (empty : LineSet) (calls : List Call) (s : LineSet) : Prop where
  /-- There is room for an entry. -/
  pos : 0 < s.capacity
  /-- No buffer is held twice. -/
  nodup : s.ids.Nodup
  /-- No more entries are held than there is room for. -/
  size_le : s.size ≤ s.capacity
  /-- All entries are those that were brought in last. -/
  given : ∀ entry ∈ s.lines, Given empty calls entry
  /-- All entries were touched. -/
  touched : ∀ entry ∈ s.lines, ∃ time, LastTouched empty calls entry.bufferId time
  /-- The entries stand in the order in which they were last touched. -/
  ordered : s.lines.Pairwise fun entry other => ∀ time later,
    LastTouched empty calls entry.bufferId time → LastTouched empty calls other.bufferId later →
      time < later

theorem nodup_call (h : s.ids.Nodup) (c : Call) : (s.call c).ids.Nodup := by
  cases c with
  | insert entry => exact nodup_ids_add h entry
  | access id => exact (ids_touch_perm h id).nodup_iff.mpr h
  | contains id => exact h
  | clear => exact List.nodup_nil

theorem size_call_le (hpos : 0 < s.capacity) (hnodup : s.ids.Nodup) (h : s.size ≤ s.capacity)
    (c : Call) : (s.call c).size ≤ s.capacity := by
  cases c with
  | insert entry => exact size_add_le hpos h entry
  | access id => exact (size_touch hnodup id).trans_le h
  | contains id => exact h
  | clear => exact Nat.zero_le _

/-- An entry that is not touched is the one given if it was before. -/
theorem Given.concat_of_not (h : Given empty calls entry)
    (hnot : ¬ Touches entry.bufferId (empty.after calls) c) : Given empty (calls ++ [c]) entry :=
  h.concat fun hrenews => hnot (.inl hrenews)

/-- Entries that are not touched stay in the order they were in. -/
theorem Regular.ordered_concat {lines : List RangeEntry}
    (h : Regular empty calls (empty.after calls)) (hsub : lines.Sublist (empty.after calls).lines)
    (hnot : ∀ other ∈ lines, ¬ Touches other.bufferId (empty.after calls) c) :
    lines.Pairwise fun entry other => ∀ time later,
      LastTouched empty (calls ++ [c]) entry.bufferId time →
        LastTouched empty (calls ++ [c]) other.bufferId later → time < later := by
  refine (h.ordered.sublist hsub).imp_of_mem ?_
  intro entry other hentry hother hlt time later htime hlater
  exact hlt time later ((last_concat_of_not (hnot entry hentry)).mp htime)
    ((last_concat_of_not (hnot other hother)).mp hlater)

/-- **A call keeps the entries in order.** -/
theorem Regular.call (h : Regular empty calls (empty.after calls)) (c : Call) :
    Regular empty (calls ++ [c]) ((empty.after calls).call c) := by
  have hcapacity := capacity_call (empty.after calls) c
  have hnodup := nodup_call h.nodup c
  have hsize := size_call_le h.pos h.nodup h.size_le c
  obtain ⟨hsub, hnot⟩ | ⟨kept, entry, hsub, hlines, htouches, hne, horigin⟩ :=
    call_cases (empty.after calls) c
  · refine ⟨hcapacity ▸ h.pos, hnodup, hcapacity ▸ hsize, ?_, ?_, h.ordered_concat hsub hnot⟩
    · intro other hmem
      exact (h.given other (hsub.subset hmem)).concat_of_not (hnot other hmem)
    · intro other hmem
      obtain ⟨time, htime⟩ := h.touched other (hsub.subset hmem)
      exact ⟨time, (last_concat_of_not (hnot other hmem)).mpr htime⟩
  · have hnot : ∀ other ∈ kept, ¬ Touches other.bufferId (empty.after calls) c := by
      intro other hmem
      rw [htouches]
      exact hne other hmem
    have hlast : LastTouched empty (calls ++ [c]) entry.bufferId calls.length :=
      last_concat_of ((htouches _).mpr rfl)
    refine ⟨hcapacity ▸ h.pos, hnodup, hcapacity ▸ hsize, ?_, ?_, ?_⟩
    · intro other hmem
      rw [hlines, List.mem_append, List.mem_singleton] at hmem
      rcases hmem with hmem | rfl
      · exact (h.given other (hsub.subset hmem)).concat_of_not (hnot other hmem)
      · rcases horigin with hbrings | ⟨hheld, hrenews⟩
        · exact given_concat_of hbrings
        · exact (h.given _ hheld).concat (hrenews _)
    · intro other hmem
      rw [hlines, List.mem_append, List.mem_singleton] at hmem
      rcases hmem with hmem | rfl
      · obtain ⟨time, htime⟩ := h.touched other (hsub.subset hmem)
        exact ⟨time, (last_concat_of_not (hnot other hmem)).mpr htime⟩
      · exact ⟨calls.length, hlast⟩
    · rw [hlines, List.pairwise_append]
      refine ⟨h.ordered_concat hsub hnot, List.pairwise_singleton _ _, ?_⟩
      -- all that stay were touched before this call
      intro other hmem entry' hentry' time later htime hlater
      rw [List.mem_singleton] at hentry'
      subst hentry'
      rw [hlater.unique hlast]
      exact ((last_concat_of_not (hnot other hmem)).mp htime).1.lt_length

/-- The entries are in order after any calls. -/
theorem regular_after (hpos : 0 < empty.capacity) (hempty : empty.lines = []) (calls : List Call) :
    Regular empty calls (empty.after calls) := by
  induction calls using List.reverseRecOn with
  | nil =>
    constructor <;> simp_all [after, ids, size]
  | append_singleton calls c ih =>
    rw [after_concat]
    exact ih.call c

theorem ids_filter_ne (h : s.ids.Nodup) (id : BufferId) :
    (s.lines.filter (·.bufferId != id)).map (·.bufferId) = s.ids.erase id := by
  rw [h.erase_eq_filter, ids, List.filter_map]
  rfl

/-- What is looked up and held is what was brought in for the buffer. -/
theorem Regular.exists_given (h : Regular empty calls s) (hid : id ∈ s.ids) :
    ∃ entry, s.get? id = some entry ∧ entry.bufferId = id ∧ Given empty calls entry := by
  rw [← contains_iff, contains, Option.isSome_iff_exists] at hid
  obtain ⟨entry, hget⟩ := hid
  exact ⟨entry, hget, bufferId_of_get? hget, h.given entry (List.mem_of_find?_eq_some hget)⟩

/-- The entry in front was touched before all others. -/
theorem Regular.exists_victim (h : Regular empty calls s) (hfull : s.capacity ≤ s.size) :
    ∃ victim, s.lines.head? = some victim ∧ victim.bufferId ∈ s.ids ∧ Given empty calls victim ∧
      (∀ id ∈ s.ids, id ≠ victim.bufferId → ∀ time later,
        LastTouched empty calls victim.bufferId time → LastTouched empty calls id later →
          time < later) ∧
      s.lines.tail.map (·.bufferId) = s.ids.erase victim.bufferId := by
  obtain ⟨victim, rest, hlines⟩ : ∃ victim rest, s.lines = victim :: rest :=
    List.exists_cons_of_length_pos (h.pos.trans_le hfull)
  have hids : s.ids = victim.bufferId :: rest.map (·.bufferId) := by
    rw [ids, hlines, List.map_cons]
  have hmem : victim ∈ s.lines := hlines ▸ List.mem_cons_self
  have hordered := h.ordered
  rw [hlines, List.pairwise_cons] at hordered
  refine ⟨victim, by rw [hlines, List.head?_cons], List.mem_map_of_mem hmem, h.given victim hmem,
    ?_, by rw [hlines, hids, List.tail_cons, List.erase_cons_head]⟩
  intro id hid hne
  rw [hids, List.mem_cons, or_iff_right hne] at hid
  obtain ⟨other, hother, rfl⟩ := List.mem_map.mp hid
  exact hordered.1 other hother

/-- What the order of the entries means for the next call. -/
theorem Regular.inTouchOrder {capacity : Nat} {policy : ReplacementPolicy}
    (h : Regular empty calls s) (hcapacity : s.capacity = capacity) (hpolicy : s.policy = policy) :
    InTouchOrder capacity policy empty calls s := by
  subst hcapacity
  have hsize : s.size = s.ids.length := s.size_eq_length_ids
  refine ⟨hpolicy, h.nodup, hsize ▸ h.size_le, ?_, List.pairwise_map.mpr h.ordered,
    fun id => contains_iff, fun id => h.exists_given, fun id => access_of_not_held, ?_, ?_,
    fun entry => insert_of_held, ?_, ?_, fun _ => rfl, rfl⟩
  · intro id hid
    obtain ⟨entry, hentry, rfl⟩ := List.mem_map.mp hid
    exact h.touched entry hentry
  · intro hfifo id
    rw [access_of_fifo (hpolicy.trans hfifo)]
  · intro hlru id hid
    obtain ⟨entry, hget, rfl, -⟩ := h.exists_given hid
    rw [access_of_lru (hpolicy.trans hlru) hget, ids, List.map_append, ids_filter_ne h.nodup,
      List.map_singleton]
  · intro entry hid hlength
    have hroom : s.size < s.capacity := by
      have hle := h.size_le
      omega
    rw [insert_of_room hid hroom]
    exact ⟨rfl, List.map_append⟩
  · intro entry hid hlength
    have hfull : s.capacity ≤ s.size := by omega
    obtain ⟨victim, hhead, hmem, hgiven, hfirst, htail⟩ := h.exists_victim hfull
    rw [insert_of_full hid hfull]
    refine ⟨victim, hhead, hmem, hgiven, hfirst, ?_⟩
    rw [ids, List.map_append, htail, List.map_singleton]

/-- **The entry that gives way is the one that was not touched for the longest time.**  A set with
room for at least one entry can be made, and whatever calls are made on it, its entries stand in the
order in which they were last touched. -/
theorem in_touch_order {capacity : Nat} (hpos : 0 < capacity) (policy : ReplacementPolicy) :
    ∃ empty, new capacity policy = .ok empty ∧
      ∀ calls, InTouchOrder capacity policy empty calls (empty.after calls) := by
  refine ⟨⟨[], capacity, policy⟩, ?_, fun calls => ?_⟩
  · rw [new, if_neg hpos.ne']
  · exact (regular_after hpos rfl calls).inTouchOrder (capacity_after _ _) (policy_after _ _)

/-- Two entries come in, the first one is used, and the third one takes the place of the second.
Under `fifo` the use does not count, and the first one gives way. -/
theorem in_touch_order_of_two :
    let entry (id : BufferId) : RangeEntry := ⟨id, 0x1000, 16, false, 0⟩
    let calls : List Call :=
      [.insert (entry 1), .insert (entry 2), .access 1, .insert (entry 2), .insert (entry 3)]
    (∃ empty, new 2 .lru = .ok empty ∧ (empty.after calls).ids = [1, 3] ∧
      InTouchOrder 2 .lru empty calls (empty.after calls)) ∧
    ∃ empty, new 2 .fifo = .ok empty ∧ (empty.after calls).ids = [2, 3] ∧
      InTouchOrder 2 .fifo empty calls (empty.after calls) := by
  constructor
  · obtain ⟨empty, hnew, hordered⟩ := in_touch_order (by decide : 0 < 2) .lru
    refine ⟨empty, hnew, ?_, hordered _⟩
    cases hnew
    decide
  · obtain ⟨empty, hnew, hordered⟩ := in_touch_order (by decide : 0 < 2) .fifo
    refine ⟨empty, hnew, ?_, hordered _⟩
    cases hnew
    decide

end LineSet

end BoundsCheck
