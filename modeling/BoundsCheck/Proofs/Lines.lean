import BoundsCheck.Proofs.Servers

/-!
# Entries held and entries awaited

A cache never waits for an entry that it holds.  An entry comes in with the answer that ends the
wait for it, and whoever asks for an entry that is held does not wait.  So an entry that comes in
is always new, and whoever finds an entry has nobody to overtake.

* `LineSet.ids_touch_perm`, `LineSet.size_add` — what using and adding an entry do to a set.
* `LineSet.size_add_le`, `LineSet.add_of_room` — a set keeps to its room, and gives up nothing before.
* `RangeCache.Tidy` — no buffer is held twice, and none is held and awaited.
* `RangeCache.Tidy.cycle` — a cache stays tidy, whatever arrives from above and from below.
-/

set_option autoImplicit false

namespace BoundsCheck

open Lookup

/-! ## Sets of entries -/

namespace LineSet

variable {s : LineSet} {id : BufferId} {entry : RangeEntry}

theorem get?_eq_none_iff : s.get? id = none ↔ id ∉ s.ids := by
  simp [get?, ids]

theorem contains_iff : s.contains id = true ↔ id ∈ s.ids := by
  rw [contains, Option.isSome_iff_ne_none, Ne, get?_eq_none_iff, not_not]

theorem size_eq_length_ids (s : LineSet) : s.size = s.ids.length := by
  rw [size, ids, List.length_map]

/-- Of different buffers one is held, so the entries of one buffer are that entry alone. -/
theorem filter_eq_singleton (h : s.ids.Nodup) (hget : s.get? id = some entry) :
    s.lines.filter (·.bufferId == id) = [entry] := by
  obtain ⟨hid, before, after, hlines, hbefore⟩ := List.find?_eq_some_iff_append.mp hget
  rw [ids, hlines, List.map_append, List.map_cons, List.nodup_middle, List.nodup_cons] at h
  have hafter : ∀ other ∈ after, ¬ (other.bufferId == id) = true := by
    intro other hmem heq
    rw [beq_iff_eq] at heq hid
    refine h.1 ?_
    rw [hid, ← heq]
    exact List.mem_append_right _ (List.mem_map_of_mem hmem)
  have hnone : before.filter (·.bufferId == id) = [] :=
    List.filter_eq_nil_iff.mpr fun other hmem => by simpa using hbefore other hmem
  rw [hlines, List.filter_append, hnone, List.filter_cons, if_pos hid,
    List.filter_eq_nil_iff.mpr hafter, List.nil_append]

/-- Using an entry may change the order of the entries, but nothing else. -/
theorem ids_touch_perm (h : s.ids.Nodup) (id : BufferId) : (s.touch id).ids.Perm s.ids := by
  rw [touch]
  split
  · exact List.Perm.refl _
  · split
    · exact List.Perm.refl _
    · rename_i entry hget
      refine List.Perm.map _ (List.perm_append_comm.trans ?_)
      rw [← filter_eq_singleton h hget]
      exact List.filter_append_perm (fun other : RangeEntry => other.bufferId == id) s.lines

theorem mem_ids_add {other : BufferId} (h : other ∈ (s.add entry).ids) :
    other ∈ s.ids ∨ other = entry.bufferId := by
  obtain ⟨line, hline, rfl⟩ := List.mem_map.mp h
  obtain hline | rfl := RangeCache.mem_lines_add hline
  · exact .inl (List.mem_map_of_mem hline)
  · exact .inr rfl

theorem nodup_ids_add (h : s.ids.Nodup) (entry : RangeEntry) : (s.add entry).ids.Nodup := by
  rw [add]
  split
  · exact h
  · rename_i hc
    rw [contains_iff] at hc
    have hsnoc : ∀ ids : List BufferId, ids.Sublist s.ids → (ids ++ [entry.bufferId]).Nodup := by
      intro ids hsub
      rw [List.nodup_append]
      refine ⟨h.sublist hsub, List.nodup_singleton _, fun a ha b hb heq => hc ?_⟩
      rw [← List.mem_singleton.mp hb, ← heq]
      exact hsub.subset ha
    split
    · show ((s.lines.tail ++ [entry]).map _).Nodup
      rw [List.map_append]
      exact hsnoc _ ((List.tail_sublist _).map _)
    · show ((s.lines ++ [entry]).map _).Nodup
      rw [List.map_append]
      exact hsnoc _ (List.Sublist.refl _)

/-- A new entry takes the place of another one or one more place. -/
theorem size_add (h : s.contains entry.bufferId = false) :
    (s.add entry).size + (if (s.victim? entry).isSome then 1 else 0) = s.size + 1 := by
  rw [add, victim?]
  simp only [h, Bool.false_eq_true, if_false]
  split
  · rcases hlines : s.lines with _ | ⟨first, rest⟩
    · simp [size, hlines]
    · simp [size, hlines]
  · simp [size]

@[simp] theorem capacity_add (s : LineSet) (entry : RangeEntry) :
    (s.add entry).capacity = s.capacity := by
  rw [add]
  split
  · rfl
  · split <;> rfl

@[simp] theorem capacity_touch (s : LineSet) (id : BufferId) :
    (s.touch id).capacity = s.capacity := by
  rw [touch]
  split
  · rfl
  · split <;> rfl

/-- A set with room for at least one entry never outgrows its room. -/
theorem size_add_le (hpos : 0 < s.capacity) (h : s.size ≤ s.capacity) (entry : RangeEntry) :
    (s.add entry).size ≤ s.capacity := by
  rw [add]
  split
  · exact h
  · by_cases hfull : s.isFull = true
    · rw [if_pos hfull]
      rw [isFull, decide_eq_true_eq] at hfull
      simp only [size, List.length_append, List.length_tail, List.length_singleton] at h hfull ⊢
      omega
    · rw [if_neg hfull]
      rw [isFull, decide_eq_true_eq] at hfull
      simp only [size, List.length_append, List.length_singleton] at h hfull ⊢
      omega

theorem size_touch (h : s.ids.Nodup) (id : BufferId) : (s.touch id).size = s.size := by
  rw [size_eq_length_ids, size_eq_length_ids, (ids_touch_perm h id).length_eq]

/-- What is found for a buffer is held under it. -/
theorem bufferId_of_get? {id : BufferId} (h : s.get? id = some entry) : entry.bufferId = id := by
  simpa using List.find?_some h

/-- An entry that is held already or finds room comes without giving up another one. -/
theorem add_of_room (h : entry.bufferId ∉ s.ids → s.size < s.capacity) :
    s.victim? entry = none ∧
      ∀ id, id ∈ (s.add entry).ids ↔ id ∈ s.ids ∨ id = entry.bufferId := by
  by_cases hheld : entry.bufferId ∈ s.ids
  · have hcontains := contains_iff.mpr hheld
    rw [victim?, if_pos hcontains, add, if_pos hcontains]
    refine ⟨rfl, fun id => ⟨.inl, ?_⟩⟩
    rintro (hid | rfl)
    · exact hid
    · exact hheld
  · have hcontains : ¬s.contains entry.bufferId = true := by rwa [contains_iff]
    have hfull : ¬s.isFull = true := by simpa [isFull] using h hheld
    rw [victim?, if_neg hcontains, if_neg hfull, add, if_neg hcontains, if_neg hfull]
    exact ⟨rfl, fun id => by simp [ids]⟩

end LineSet

/-! ## Tidy caches -/

namespace RangeCache

/-- No buffer is held twice, and none is held whose entry is awaited. -/
structure Tidy (c : RangeCache) : Prop where
  /-- No buffer is held twice. -/
  nodup : c.lines.ids.Nodup
  /-- No entry is awaited that is held. -/
  apart : ∀ id ∈ c.lines.ids, id ∉ c.misses.ids

variable {c : RangeCache} {now : Nat} {lower : Lookup.Link}

/-- Only the entries that are held and those that are awaited matter. -/
theorem Tidy.congr (h : c.Tidy) {c' : RangeCache} (hlines : c'.lines = c.lines)
    (hmisses : c'.misses = c.misses) : c'.Tidy := by
  refine ⟨?_, ?_⟩
  · rw [hlines]
    exact h.nodup
  · rw [hlines, hmisses]
    exact h.apart

/-- An entry that is awaited is not held. -/
theorem Tidy.contains_eq_false (h : c.Tidy) {id : BufferId} (hid : id ∈ c.misses.ids) :
    c.lines.contains id = false := by
  rw [← Bool.not_eq_true, LineSet.contains_iff]
  exact fun hheld => h.apart id hheld hid

theorem nodup_keep (h : c.lines.ids.Nodup) (rsp : Response) : (c.keep rsp).lines.ids.Nodup := by
  rw [keep]
  split
  · exact LineSet.nodup_ids_add h _
  · exact h

theorem mem_ids_keep {rsp : Response} {id : BufferId} (hid : id ∈ (c.keep rsp).lines.ids) :
    id ∈ c.lines.ids ∨ id = rsp.bufferId := by
  rw [keep] at hid
  split at hid
  · rename_i hreal
    rw [isRealEntry, Bool.and_eq_true, beq_iff_eq] at hreal
    rw [← hreal.2]
    exact LineSet.mem_ids_add hid
  · exact .inl hid

/-- Nobody waits for a buffer any longer once its answer has come. -/
theorem mem_ids_answerWaiting {rsp : Response} {id : BufferId}
    (hid : id ∈ (c.answerWaiting now rsp).misses.ids) : id ∈ c.misses.ids ∧ id ≠ rsp.bufferId := by
  rw [answerWaiting] at hid
  split at hid
  · rename_i hnone
    exact ⟨hid, fun heq => MissTable.take?_eq_none_iff_notMem.mp hnone (heq ▸ hid)⟩
  · rename_i htake
    exact (MissTable.mem_ids_of_take? htake).mp hid

/-- An answer brings in the entry that was awaited, and ends the wait for it. -/
theorem Tidy.fill (h : c.Tidy) (now : Nat) (rsp : Response) : (c.fill now rsp).Tidy := by
  refine ⟨?_, fun id hid hmiss => ?_⟩
  · rw [RangeCache.fill, lines_answerWaiting]
    exact nodup_keep h.nodup rsp
  · rw [RangeCache.fill, lines_answerWaiting] at hid
    obtain ⟨hmiss, hne⟩ := mem_ids_answerWaiting hmiss
    rw [misses_keep] at hmiss
    rcases mem_ids_keep hid with hid | heq
    · exact h.apart id hid hmiss
    · exact hne heq

/-- Nobody starts to wait for an entry that is held. -/
theorem Tidy.access (h : c.Tidy) (now : Nat) (req : Request) (lower : Lookup.Link) :
    (c.access now req lower).1.Tidy := by
  have hwait : req.bufferId ∉ c.lines.ids →
      ∀ id ∈ c.lines.ids, id ∉ (c.misses.add req).ids := by
    intro hnot id hid hmiss
    rcases MissTable.mem_ids_add.mp hmiss with hmiss | heq
    · exact h.apart id hid hmiss
    · exact hnot (heq ▸ hid)
  rw [RangeCache.access]
  split
  · have hperm := LineSet.ids_touch_perm h.nodup req.bufferId
    exact ⟨hperm.nodup_iff.mpr h.nodup, fun id hid => h.apart id (hperm.mem_iff.mp hid)⟩
  · rename_i hnone
    rw [LineSet.get?_eq_none_iff] at hnone
    split
    · exact ⟨h.nodup, hwait hnone⟩
    · exact ⟨h.nodup, hwait hnone⟩

theorem Tidy.takeResponse (h : c.Tidy) (now : Nat) (lower : Lookup.Link) :
    (c.takeResponse now lower).1.Tidy := by
  rw [RangeCache.takeResponse]
  split
  · exact h
  · exact h.fill now _

theorem Tidy.takeRequest (h : c.Tidy) (now : Nat) (lower : Lookup.Link) :
    (c.takeRequest now lower).1.Tidy := by
  rcases hpop : c.port.requests.pop? now with _ | ⟨packet, rest⟩
  · rwa [RangeCache.takeRequest, hpop]
  · rw [takeRequest_of_pop? hpop]
    exact Tidy.access (c := c.taken now packet rest) (h.congr rfl rfl) now _ _

/-- **A cache never holds an entry that it waits for**, whatever comes from below. -/
theorem Tidy.cycle (h : c.Tidy) (now : Nat) (lower : Lookup.Link) :
    (c.cycle now lower).1.Tidy :=
  (Tidy.takeResponse (c := c.countWaiting) (h.congr rfl rfl) now lower).takeRequest now _

theorem tidy_reset (c : RangeCache) : c.reset.Tidy :=
  ⟨List.nodup_nil, fun _ hid => absurd hid List.not_mem_nil⟩

end RangeCache

end BoundsCheck
