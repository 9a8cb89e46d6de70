import Mathlib.Data.Finset.Card
import BoundsCheck.Proofs.Recency

/-!
# More room, fewer misses

A set of entries is put to use like this: an entry that is asked for is looked up and, if it is not
held, brought in.  Under `lru` the set then holds the buffers that were asked for most recently, as
many as there is room for, and nothing else matters.  So of two sets that are asked for the same
buffers, the larger one holds all that the smaller one does and misses no more often.  Under `fifo`
neither is true.

* `LineSet.demand`, `LineSet.misses` — how a set is put to use, and how often it lacks an entry.
* `LineSet.age` — how long ago a buffer was asked for.
* `LineSet.MostRecent` — the buffers that were asked for most recently.
* `LineSet.MostRecent.subset` — with more room there are more of them.
* `LineSet.Recent.demand` — a set under `lru` goes on holding them, whatever is asked for.
* `LineSet.larger_holds_more` — what follows for two sets.
-/

set_option autoImplicit false

namespace BoundsCheck

namespace LineSet

/-! ## Putting a set to use -/

/-- The set after an entry was asked for: it is used if its buffer is held, and else brought in. -/
def demand (s : LineSet) (entry : RangeEntry) : LineSet :=
  match s.access entry.bufferId with
  | (some _, used) => used
  | (none, used) => (used.insert entry).2

/-- The set after several entries were asked for, one after the other. -/
def afterDemands (entries : List RangeEntry) (s : LineSet) : LineSet := entries.foldl demand s

/-- How many of the entries asked for are not held by then. -/
def misses (s : LineSet) : List RangeEntry → Nat
  | [] => 0
  | entry :: rest =>
    (if (s.access entry.bufferId).1.isNone then 1 else 0) + (s.demand entry).misses rest

/-- How many buffers were asked for since this one was.  The list begins with the first. -/
def age (asked : List BufferId) (id : BufferId) : Nat := asked.reverse.idxOf id

/-- The buffers in `ids` are those that were asked for most recently, as many as there is room for,
the one asked for least recently first. -/
structure MostRecent (capacity : Nat) (asked ids : List BufferId) : Prop where
  /-- None is listed twice. -/
  nodup : ids.Nodup
  /-- There is no room left, or all that were asked for are listed. -/
  length_eq : ids.length = min capacity asked.toFinset.card
  /-- All were asked for. -/
  demanded : ∀ id ∈ ids, id ∈ asked
  /-- The one asked for least recently comes first. -/
  ordered : ids.Pairwise fun id other => age asked other < age asked id
  /-- All others were asked for less recently, if at all. -/
  newest : ∀ id ∈ ids, ∀ other, other ∉ ids → age asked id < age asked other

/-! ## The most recent buffers -/

variable {capacity : Nat} {asked ids : List BufferId} {id : BufferId}

/-- The buffer asked for just now is the youngest, and all others have aged. -/
theorem age_concat (asked : List BufferId) (id other : BufferId) :
    age (asked ++ [id]) other = if other = id then 0 else age asked other + 1 := by
  rw [age, List.reverse_append, List.reverse_singleton, List.singleton_append, List.idxOf_cons]
  by_cases heq : other = id
  · simp [heq]
  · rw [if_neg heq, beq_false_of_ne (Ne.symm heq), cond_false, age]

theorem mostRecent_nil (capacity : Nat) : MostRecent capacity [] [] := by
  constructor <;> simp

/-- The buffer asked for just now goes behind those that stay, and the others that were asked for
are all older than these. -/
theorem MostRecent.concat (h : MostRecent capacity asked ids) {kept : List BufferId}
    (hsub : kept.Sublist ids) (hid : id ∉ kept)
    (hlength : kept.length + 1 = min capacity (asked ++ [id]).toFinset.card)
    (hnewest : ∀ stays ∈ kept, ∀ other, other ∉ kept → other ≠ id →
      age asked stays < age asked other) :
    MostRecent capacity (asked ++ [id]) (kept ++ [id]) := by
  have hne : ∀ stays ∈ kept, stays ≠ id := fun stays hstays heq => hid (heq ▸ hstays)
  refine ⟨?_, ?_, ?_, ?_, ?_⟩
  · rw [List.nodup_append]
    refine ⟨h.nodup.sublist hsub, List.nodup_singleton id, fun stays hstays other hother => ?_⟩
    rw [List.mem_singleton.mp hother]
    exact hne stays hstays
  · rw [List.length_append, List.length_singleton, hlength]
  · intro other hother
    rcases List.mem_append.mp hother with hkept | hlast
    · exact List.mem_append_left _ (h.demanded other (hsub.subset hkept))
    · exact List.mem_append_right _ hlast
  · rw [List.pairwise_append]
    refine ⟨(h.ordered.sublist hsub).imp_of_mem ?_, List.pairwise_singleton _ _, ?_⟩
    · intro older younger holder hyounger hlt
      rw [age_concat, age_concat, if_neg (hne _ holder), if_neg (hne _ hyounger)]
      exact Nat.succ_lt_succ hlt
    · intro stays hstays last hlast
      rw [List.mem_singleton.mp hlast, age_concat, age_concat, if_pos rfl, if_neg (hne _ hstays)]
      exact Nat.succ_pos _
  · intro stays hstays other hother
    rw [List.mem_append, List.mem_singleton, not_or] at hother
    rw [age_concat asked id other, if_neg hother.2]
    rcases List.mem_append.mp hstays with hkept | hlast
    · rw [age_concat, if_neg (hne _ hkept)]
      exact Nat.succ_lt_succ (hnewest stays hkept other hother.1 hother.2)
    · rw [List.mem_singleton.mp hlast, age_concat, if_pos rfl]
      exact Nat.succ_pos _

theorem toFinset_concat (asked : List BufferId) (id : BufferId) :
    (asked ++ [id]).toFinset = Insert.insert id asked.toFinset := by
  rw [List.toFinset_append, List.toFinset_cons, List.toFinset_nil, insert_empty_eq,
    Finset.union_singleton]

/-- A buffer that is among the most recent ones moves to the back. -/
theorem MostRecent.again (h : MostRecent capacity asked ids) (hid : id ∈ ids) :
    MostRecent capacity (asked ++ [id]) (ids.erase id ++ [id]) := by
  refine h.concat List.erase_sublist ?_ ?_ ?_
  · exact fun hmem => (h.nodup.mem_erase_iff.mp hmem).1 rfl
  · -- nothing new was asked for
    have hasked : id ∈ asked.toFinset := List.mem_toFinset.mpr (h.demanded id hid)
    have hpos := List.length_pos_of_mem hid
    rw [toFinset_concat, Finset.insert_eq_of_mem hasked, ← h.length_eq,
      List.length_erase_of_mem hid]
    omega
  · intro stays hstays other hother hne
    refine h.newest stays (List.mem_of_mem_erase hstays) other fun hmem => hother ?_
    exact (List.mem_erase_of_ne hne).mpr hmem

/-- As long as there is room, all that were asked for are listed. -/
theorem MostRecent.mem_of_room (h : MostRecent capacity asked ids) (hroom : ids.length < capacity)
    (hid : id ∈ asked) : id ∈ ids := by
  have hcard : ids.toFinset.card = asked.toFinset.card := by
    have hlength := h.length_eq
    rw [List.toFinset_card_of_nodup h.nodup]
    omega
  have hsub : ids.toFinset ⊆ asked.toFinset := by
    intro other hother
    rw [List.mem_toFinset] at hother ⊢
    exact h.demanded other hother
  rw [← List.mem_toFinset, Finset.eq_of_subset_of_card_le hsub hcard.ge, List.mem_toFinset]
  exact hid

/-- As long as there is room, a buffer that is new is added to the others. -/
theorem MostRecent.room (h : MostRecent capacity asked ids) (hid : id ∉ ids)
    (hroom : ids.length < capacity) : MostRecent capacity (asked ++ [id]) (ids ++ [id]) := by
  refine h.concat (List.Sublist.refl ids) hid ?_ fun stays hstays other hother _ =>
    h.newest stays hstays other hother
  have hnew : id ∉ asked.toFinset := fun hasked =>
    hid (h.mem_of_room hroom (List.mem_toFinset.mp hasked))
  have hlength := h.length_eq
  rw [toFinset_concat, Finset.card_insert_of_notMem hnew]
  omega

/-- Without room, the one asked for least recently gives way. -/
theorem MostRecent.full (h : MostRecent capacity asked ids) (hid : id ∉ ids) (hpos : 0 < capacity)
    (hfull : capacity ≤ ids.length) : MostRecent capacity (asked ++ [id]) (ids.tail ++ [id]) := by
  obtain ⟨oldest, rest, rfl⟩ : ∃ oldest rest, ids = oldest :: rest :=
    List.exists_cons_of_length_pos (hpos.trans_le hfull)
  have hlength := h.length_eq
  have hmore : asked.toFinset.card ≤ (asked ++ [id]).toFinset.card := by
    rw [toFinset_concat]
    exact Finset.card_le_card (Finset.subset_insert _ _)
  rw [List.tail_cons]
  refine h.concat (List.sublist_cons_self oldest rest)
    (fun hmem => hid (List.mem_cons_of_mem _ hmem)) ?_ ?_
  · rw [List.length_cons] at hlength hfull
    omega
  · intro stays hstays other hother _
    by_cases heq : other = oldest
    · rw [heq]
      exact (List.pairwise_cons.mp h.ordered).1 stays hstays
    · refine h.newest stays (List.mem_cons_of_mem _ hstays) other fun hmem => ?_
      exact hother ((List.mem_cons.mp hmem).resolve_left heq)

/-- **With more room, more of the buffers are among the most recent ones.** -/
theorem MostRecent.subset {larger : Nat} {others : List BufferId}
    (h : MostRecent capacity asked ids) (h' : MostRecent larger asked others)
    (hle : capacity ≤ larger) : ids ⊆ others := by
  intro id hid
  by_contra hnot
  -- all the others are younger than this one, so they are among the fewer ones as well
  have hsub : others ⊆ ids.erase id := by
    intro other hother
    have hyounger := h'.newest other hother id hnot
    have hmem : other ∈ ids := by
      by_contra hmissing
      exact absurd (h.newest id hid other hmissing) (Nat.lt_asymm hyounger)
    refine h.nodup.mem_erase_iff.mpr ⟨fun heq => hnot (heq ▸ hother), hmem⟩
  have hlength := (List.subperm_of_subset h'.nodup hsub).length_le
  have hpos := List.length_pos_of_mem hid
  rw [List.length_erase_of_mem hid] at hlength
  have hsmall := h.length_eq
  have hlarge := h'.length_eq
  omega

/-! ## Sets under `lru` -/

/-- What is kept of a set under `lru` that is put to use: it holds the most recent buffers. -/
structure Recent (capacity : Nat) (asked : List BufferId) (s : LineSet) : Prop where
  policy_eq : s.policy = .lru
  capacity_eq : s.capacity = capacity
  ids : MostRecent capacity asked s.ids

variable {s : LineSet} {entry : RangeEntry}

/-- An entry that is asked for is used or added. -/
theorem demand_eq (s : LineSet) (entry : RangeEntry) :
    s.demand entry
      = if s.contains entry.bufferId then s.touch entry.bufferId else s.add entry := by
  rw [demand, access, contains]
  cases hget : s.get? entry.bufferId with
  | none =>
    have htouch : s.touch entry.bufferId = s :=
      congrArg Prod.snd (access_of_not_held (get?_eq_none_iff.mp hget))
    rw [htouch]
    rfl
  | some found => rfl

theorem policy_demand (s : LineSet) (entry : RangeEntry) : (s.demand entry).policy = s.policy := by
  rw [demand_eq]
  split
  · exact policy_touch s _
  · exact policy_add s entry

theorem capacity_demand (s : LineSet) (entry : RangeEntry) :
    (s.demand entry).capacity = s.capacity := by
  rw [demand_eq]
  split
  · exact capacity_touch s _
  · exact capacity_add s entry

/-- Under `lru` an entry that is held and asked for goes to the back. -/
theorem demand_of_held (hpolicy : s.policy = .lru) (hnodup : s.ids.Nodup)
    (hheld : entry.bufferId ∈ s.ids) :
    (s.demand entry).ids = s.ids.erase entry.bufferId ++ [entry.bufferId] := by
  rw [← contains_iff, contains, Option.isSome_iff_exists] at hheld
  obtain ⟨found, hget⟩ := hheld
  rw [demand, access_of_lru hpolicy hget, ← bufferId_of_get? hget, ← ids_filter_ne hnodup, ids,
    List.map_append, List.map_singleton]

/-- An entry that is not held and asked for is brought in. -/
theorem demand_of_not_held (hnot : entry.bufferId ∉ s.ids) :
    s.demand entry = (s.insert entry).2 := by
  rw [demand, access_of_not_held hnot]

/-- **A set under `lru` holds the most recent buffers**, whatever is asked for next. -/
theorem Recent.demand (h : Recent capacity asked s) (hpos : 0 < capacity) (entry : RangeEntry) :
    Recent capacity (asked ++ [entry.bufferId]) (s.demand entry) := by
  refine ⟨(policy_demand s entry).trans h.policy_eq,
    (capacity_demand s entry).trans h.capacity_eq, ?_⟩
  have hsize : s.size = s.ids.length := s.size_eq_length_ids
  by_cases hheld : entry.bufferId ∈ s.ids
  · rw [demand_of_held h.policy_eq h.ids.nodup hheld]
    exact h.ids.again hheld
  · rw [demand_of_not_held hheld]
    by_cases hroom : s.ids.length < capacity
    · rw [insert_of_room hheld (by rwa [hsize, h.capacity_eq]), LineSet.ids, List.map_append]
      exact h.ids.room hheld hroom
    · rw [Nat.not_lt] at hroom
      rw [insert_of_full hheld (by rwa [hsize, h.capacity_eq]), LineSet.ids, List.map_append,
        List.map_tail]
      exact h.ids.full hheld hpos hroom

theorem Recent.afterDemands (h : Recent capacity asked s) (hpos : 0 < capacity)
    (entries : List RangeEntry) :
    Recent capacity (asked ++ entries.map (·.bufferId)) (s.afterDemands entries) := by
  induction entries generalizing asked s with
  | nil => rwa [List.map_nil, List.append_nil]
  | cons entry entries ih =>
    rw [List.map_cons, ← List.singleton_append, ← List.append_assoc]
    exact ih (h.demand hpos entry)

theorem isSome_access_iff (s : LineSet) (id : BufferId) :
    (s.access id).1.isSome = true ↔ id ∈ s.ids := contains_iff

/-- Of two sets that hold the most recent buffers, the larger one holds all that the smaller one
does. -/
theorem Recent.subset {larger : Nat} {l : LineSet} (h : Recent capacity asked s)
    (h' : Recent larger asked l) (hle : capacity ≤ larger) : s.ids ⊆ l.ids :=
  h.ids.subset h'.ids hle

/-- What the smaller set does not miss, the larger one does not either. -/
theorem Recent.misses_le {larger : Nat} {l : LineSet} (h : Recent capacity asked s)
    (h' : Recent larger asked l) (hpos : 0 < capacity) (hle : capacity ≤ larger)
    {entries others : List RangeEntry}
    (hsame : others.map (·.bufferId) = entries.map (·.bufferId)) :
    l.misses others ≤ s.misses entries := by
  induction entries generalizing asked s l others with
  | nil =>
    rw [List.map_nil, List.map_eq_nil_iff] at hsame
    rw [hsame]
    exact Nat.le_refl _
  | cons entry entries ih =>
    obtain ⟨other, rest, rfl, hid, hrest⟩ := List.map_eq_cons_iff.mp hsame
    have hdemand := h'.demand (hpos.trans_le hle) other
    rw [hid] at hdemand
    refine Nat.add_le_add ?_ (ih (h.demand hpos entry) hdemand hrest)
    -- an entry that the larger set misses is missed by the smaller one
    by_cases hheld : entry.bufferId ∈ l.ids
    · have hfound := (isSome_access_iff l other.bufferId).mpr (hid ▸ hheld)
      rw [Option.isNone_eq_false_iff.mpr hfound, if_neg Bool.false_ne_true]
      exact Nat.zero_le _
    · have hmissed : s.access entry.bufferId = (none, s) :=
        access_of_not_held fun hmem => hheld (h.subset h' hle hmem)
      rw [hmissed]
      show _ ≤ 1
      split <;> decide

theorem recent_new (capacity : Nat) : Recent capacity [] ⟨[], capacity, .lru⟩ :=
  ⟨rfl, rfl, mostRecent_nil capacity⟩

theorem new_of_pos (hpos : 0 < capacity) (policy : ReplacementPolicy) :
    new capacity policy = .ok ⟨[], capacity, policy⟩ := if_neg hpos.ne'

/-- **Under `lru` a larger set holds more and misses less.**  A set with room for at least one entry
holds the buffers that were asked for most recently.  So if a larger set is asked for the same
buffers, whatever the entries are that come in, it holds all that the smaller one does, finds all
that the smaller one finds and misses no more often. -/
theorem larger_holds_more (hpos : 0 < capacity) :
    ∃ s, new capacity .lru = .ok s ∧
      (∀ entries, MostRecent capacity (entries.map (·.bufferId)) (s.afterDemands entries).ids) ∧
      ∀ larger, capacity ≤ larger → ∃ l, new larger .lru = .ok l ∧
        ∀ entries others : List RangeEntry,
          others.map (·.bufferId) = entries.map (·.bufferId) →
            (s.afterDemands entries).ids ⊆ (l.afterDemands others).ids ∧
            (∀ id, ((s.afterDemands entries).access id).1.isSome = true →
              ((l.afterDemands others).access id).1.isSome = true) ∧
            l.misses others ≤ s.misses entries := by
  refine ⟨_, new_of_pos hpos .lru, fun entries => ?_, fun larger hle =>
    ⟨_, new_of_pos (hpos.trans_le hle) .lru, fun entries others hsame => ?_⟩⟩
  · exact ((recent_new capacity).afterDemands hpos entries).ids
  · have hsmall := (recent_new capacity).afterDemands hpos entries
    have hlarge := (recent_new larger).afterDemands (hpos.trans_le hle) others
    rw [hsame] at hlarge
    have hsub := hsmall.subset hlarge hle
    refine ⟨hsub, fun id hfound => ?_, ?_⟩
    · exact (isSome_access_iff _ id).mpr (hsub ((isSome_access_iff _ id).mp hfound))
    · exact (recent_new capacity).misses_le (recent_new larger) hpos hle hsame

/-- Three buffers in turn, twice.  With room for two of them nothing is ever found; with room for
three, all is found the second time. -/
theorem larger_holds_more_three_in_turn :
    let entry (base : Address) (id : BufferId) : RangeEntry := ⟨id, base, 16, false, 0⟩
    let asked : List BufferId := [1, 2, 3, 1, 2, 3]
    let entries := asked.map (entry 0x1000)
    let others := asked.map (entry 0x2000)
    0 < 2 ∧ 2 ≤ 3 ∧ others.map (·.bufferId) = entries.map (·.bufferId) ∧
      ∃ s, new 2 .lru = .ok s ∧ MostRecent 2 asked (s.afterDemands entries).ids ∧
        (s.afterDemands entries).ids = [2, 3] ∧ s.misses entries = 6 ∧
        ∃ l, new 3 .lru = .ok l ∧ (s.afterDemands entries).ids ⊆ (l.afterDemands others).ids ∧
          l.misses others = 3 ∧ l.misses others ≤ s.misses entries := by
  intro entry asked entries others
  obtain ⟨s, hs, hrecent, hlarger⟩ := larger_holds_more (by decide : 0 < 2)
  obtain ⟨l, hl, hcompare⟩ := hlarger 3 (by decide)
  obtain ⟨hsub, -, hmisses⟩ := hcompare entries others rfl
  refine ⟨by decide, by decide, rfl, s, hs, hrecent entries, ?_, ?_, l, hl, hsub, ?_, hmisses⟩
  · cases hs
    decide
  · cases hs
    decide
  · cases hl
    decide

/-- Under `fifo` more room may mean more misses. -/
example :
    let entry (id : BufferId) : RangeEntry := ⟨id, 0x1000, 16, false, 0⟩
    let entries := ([1, 2, 3, 4, 1, 2, 5, 1, 2, 3, 4, 5] : List BufferId).map entry
    (⟨[], 3, .fifo⟩ : LineSet).misses entries = 9 ∧
      (⟨[], 4, .fifo⟩ : LineSet).misses entries = 10 := by
  decide

end LineSet

end BoundsCheck
