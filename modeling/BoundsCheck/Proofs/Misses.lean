import BoundsCheck.MissTable
import BoundsCheck.Proofs.Underway

/-!
# Pending misses and the questions that wait at them

All questions at a pending miss are for its buffer, and the first of them is the one that was
passed on to the server below.  So a cache that waits for some answers has exactly the first
questions of its misses under way below it.

* `MissTable.waiting` — all questions that wait.
* `MissTable.heads` — the first question of each miss.
* `MissTable.WellFormed` — one miss for a buffer, with at least one question, each for that buffer.
* `MissTable.take?_of_mem_heads` — the answer to a first question meets its miss.
* `MissTable.inTurn` — all questions that wait, those for one buffer in the order they came.
-/

set_option autoImplicit false

namespace BoundsCheck.MissTable

/-- All questions that wait for an answer. -/
def waiting (t : MissTable) : Multiset Lookup.Request := ↑(t.misses.flatMap (·.waiting))

/-- The first question of each miss. -/
def heads (t : MissTable) : Multiset Lookup.Request := ↑(t.misses.filterMap (·.waiting.head?))

/-- The buffers with a pending miss. -/
def ids (t : MissTable) : List BufferId := t.misses.map (·.bufferId)

/-- Each buffer has at most one miss, at which at least one question waits, and only questions for
that buffer do. -/
structure WellFormed (t : MissTable) : Prop where
  /-- No buffer has two misses. -/
  nodup : t.ids.Nodup
  /-- Somebody waits at each miss. -/
  ne_nil : ∀ miss ∈ t.misses, miss.waiting ≠ []
  /-- Whoever waits at a miss asked for its buffer. -/
  same_id : ∀ miss ∈ t.misses, ∀ req ∈ miss.waiting, req.bufferId = miss.bufferId

variable {t : MissTable} {req : Lookup.Request} {id : BufferId}

theorem wellFormed_default : WellFormed {} :=
  ⟨List.nodup_nil, fun _ h => absurd h List.not_mem_nil, fun _ h => absurd h List.not_mem_nil⟩

theorem contains_iff : t.contains id = true ↔ id ∈ t.ids := by
  simp [contains, ids]

/-! ## The miss of one buffer -/

/-- The miss of a buffer, with the misses before and after it. -/
theorem exists_split (hid : id ∈ t.ids) :
    ∃ before miss after, t.misses = before ++ miss :: after ∧ miss.bufferId = id := by
  obtain ⟨miss, hmem, hmiss⟩ := List.mem_map.mp hid
  obtain ⟨before, after, hsplit⟩ := List.append_of_mem hmem
  exact ⟨before, miss, after, hsplit, hmiss⟩

/-- In a well-formed table the other misses are those of other buffers. -/
theorem WellFormed.ne_of_split (h : t.WellFormed) {before after : List Miss} {miss : Miss}
    (hsplit : t.misses = before ++ miss :: after) :
    ∀ other ∈ before ++ after, other.bufferId ≠ miss.bufferId := by
  have hnd := h.nodup
  rw [ids, hsplit, List.map_append, List.map_cons, List.nodup_middle, List.nodup_cons] at hnd
  intro other hmem heq
  refine hnd.1 ?_
  rw [← List.map_append, ← heq]
  exact List.mem_map_of_mem hmem

theorem WellFormed.get?_of_split (h : t.WellFormed) {before after : List Miss} {miss : Miss}
    (hsplit : t.misses = before ++ miss :: after) : t.get? miss.bufferId = some miss := by
  have hne := h.ne_of_split hsplit
  rw [get?, hsplit, List.find?_append, List.find?_eq_none.mpr, Option.none_or, List.find?_cons,
    beq_self_eq_true]
  intro other hmem
  simpa using hne other (List.mem_append_left _ hmem)

/-- Part of a well-formed table is well-formed. -/
theorem WellFormed.of_split (h : t.WellFormed) {before after : List Miss} {miss : Miss}
    (hsplit : t.misses = before ++ miss :: after) : WellFormed ⟨before ++ after⟩ := by
  have hsub : (before ++ after).Sublist t.misses := by
    rw [hsplit]
    exact List.Sublist.append_left (List.sublist_cons_self _ _) _
  exact ⟨h.nodup.sublist (hsub.map _), fun other hmem => h.ne_nil other (hsub.subset hmem),
    fun other hmem => h.same_id other (hsub.subset hmem)⟩

/-- In a well-formed table a question is merged exactly if its buffer has a pending miss. -/
theorem WellFormed.merges_eq (h : t.WellFormed) (req : Lookup.Request) :
    t.merges req = t.contains req.bufferId := by
  rcases hc : t.contains req.bufferId with _ | _
  · have hnone : t.get? req.bufferId = none := by
      rw [get?, List.find?_eq_none]
      simpa [contains] using hc
    simp [merges, hnone]
  · obtain ⟨before, miss, after, hsplit, hid⟩ := exists_split (contains_iff.mp hc)
    have hget := h.get?_of_split hsplit
    have hne := h.ne_nil miss (by rw [hsplit]; simp)
    rw [hid] at hget
    simp [merges, hget, hne]

/-! ## A question joins the table -/

/-- A question for a buffer with a pending miss waits behind the others at that miss. -/
theorem WellFormed.add_of_split (h : t.WellFormed) {before after : List Miss} {miss : Miss}
    (hsplit : t.misses = before ++ miss :: after) (hid : miss.bufferId = req.bufferId) :
    t.add req = ⟨before ++ { miss with waiting := miss.waiting ++ [req] } :: after⟩ := by
  have hne := h.ne_of_split hsplit
  have hc : t.contains req.bufferId = true := contains_iff.mpr (by simp [ids, hsplit, hid])
  have hothers : ∀ others : List Miss, (∀ other ∈ others, other.bufferId ≠ miss.bufferId) →
      others.map (fun other => if other.bufferId == req.bufferId
        then { other with waiting := other.waiting ++ [req] } else other) = others := by
    intro others hall
    refine (List.map_congr_left fun other hmem => ?_).trans (List.map_id _)
    rw [← hid, if_neg (by simpa using hall other hmem), id_eq]
  rw [add, if_pos hc, hsplit, List.map_append, List.map_cons,
    hothers before fun other hmem => hne other (List.mem_append_left _ hmem),
    hothers after fun other hmem => hne other (List.mem_append_right _ hmem), hid,
    if_pos (beq_self_eq_true _)]

/-- One more question waits. -/
theorem WellFormed.waiting_add (h : t.WellFormed) (req : Lookup.Request) :
    (t.add req).waiting = t.waiting + {req} := by
  rcases hc : t.contains req.bufferId with _ | _
  · simp [add, hc, waiting, ← Multiset.coe_add]
  · obtain ⟨before, miss, after, hsplit, hid⟩ := exists_split (contains_iff.mp hc)
    rw [h.add_of_split hsplit hid]
    simp only [waiting, hsplit, List.flatMap_append, List.flatMap_cons, ← Multiset.coe_add,
      Multiset.coe_singleton]
    abel

/-- A question that is merged is not the first at its miss. -/
theorem WellFormed.heads_add_of_contains (h : t.WellFormed)
    (hc : t.contains req.bufferId = true) : (t.add req).heads = t.heads := by
  obtain ⟨before, miss, after, hsplit, hid⟩ := exists_split (contains_iff.mp hc)
  obtain ⟨first, others, hwait⟩ :=
    List.exists_cons_of_ne_nil (h.ne_nil miss (by rw [hsplit]; simp))
  rw [h.add_of_split hsplit hid]
  simp [heads, hsplit, hwait]

/-- A question that is not merged is the first at its miss. -/
theorem heads_add_of_not_contains (hc : t.contains req.bufferId = false) :
    (t.add req).heads = t.heads + {req} := by
  simp [add, hc, heads, ← Multiset.coe_add]

theorem WellFormed.add (h : t.WellFormed) (req : Lookup.Request) : (t.add req).WellFormed := by
  rcases hc : t.contains req.bufferId with _ | _
  · have hnew : req.bufferId ∉ t.ids := fun hmem => by simp [contains_iff.mpr hmem] at hc
    have hadd : t.add req = ⟨t.misses ++ [⟨req.bufferId, [req]⟩]⟩ := by simp [MissTable.add, hc]
    rw [hadd]
    refine ⟨?_, ?_, ?_⟩
    · rw [ids, List.map_append, List.map_cons, List.map_nil, List.nodup_append]
      refine ⟨h.nodup, List.nodup_singleton _, fun a ha b hb heq => hnew ?_⟩
      rw [heq, List.mem_singleton.mp hb] at ha
      exact ha
    · intro miss hmem
      rcases List.mem_append.mp hmem with hmem | hmem
      · exact h.ne_nil miss hmem
      · rw [List.mem_singleton.mp hmem]; exact List.cons_ne_nil _ _
    · intro miss hmem
      rcases List.mem_append.mp hmem with hmem | hmem
      · exact h.same_id miss hmem
      · rw [List.mem_singleton.mp hmem]; simp
  · obtain ⟨before, miss, after, hsplit, hid⟩ := exists_split (contains_iff.mp hc)
    rw [h.add_of_split hsplit hid]
    have hmiss : miss ∈ t.misses := by rw [hsplit]; simp
    have hother : ∀ other, other ∈ before ∨ other ∈ after → other ∈ t.misses := by
      intro other hmem
      rw [hsplit, List.mem_append, List.mem_cons]
      exact hmem.imp_right .inr
    refine ⟨?_, ?_, ?_⟩
    · simpa [ids, hsplit] using h.nodup
    · intro other hmem
      rw [List.mem_append, List.mem_cons] at hmem
      rcases hmem with hmem | rfl | hmem
      · exact h.ne_nil other (hother other (.inl hmem))
      · simp
      · exact h.ne_nil other (hother other (.inr hmem))
    · intro other hmem
      rw [List.mem_append, List.mem_cons] at hmem
      rcases hmem with hmem | rfl | hmem
      · exact h.same_id other (hother other (.inl hmem))
      · intro q hq
        rcases List.mem_append.mp hq with hq | hq
        · exact h.same_id miss hmiss q hq
        · rw [List.mem_singleton.mp hq]; exact hid.symm
      · exact h.same_id other (hother other (.inr hmem))

/-! ## The questions of a miss leave the table -/

theorem take?_eq_none_iff : t.take? id = none ↔ t.contains id = false := by
  rcases hg : t.get? id with _ | miss
  · have hc : t.contains id = false := by simpa [get?, contains] using hg
    simp [take?, hg, hc]
  · have hc : t.contains id = true :=
      contains_iff.mpr (List.mem_map.mpr ⟨miss, List.mem_of_find?_eq_some hg,
        by simpa using List.find?_some hg⟩)
    simp [take?, hg, hc]

theorem WellFormed.take?_of_split (h : t.WellFormed) {before after : List Miss} {miss : Miss}
    (hsplit : t.misses = before ++ miss :: after) :
    t.take? miss.bufferId = some (miss.waiting, ⟨before ++ after⟩) := by
  have hothers : ∀ other ∈ before ++ after, (other.bufferId != miss.bufferId) = true := by
    intro other hmem
    simpa using h.ne_of_split hsplit other hmem
  simp only [take?, h.get?_of_split hsplit, hsplit, List.filter_append, List.filter_cons,
    bne_self_eq_false, Bool.false_eq_true, if_false]
  rw [← List.filter_append, List.filter_eq_self.mpr hothers]

theorem take?_eq_none_iff_notMem : t.take? id = none ↔ id ∉ t.ids := by
  rw [take?_eq_none_iff, ← Bool.not_eq_true, contains_iff]

theorem mem_ids_of_take?_eq_some {reqs : List Lookup.Request} {rest : MissTable}
    (htake : t.take? id = some (reqs, rest)) : id ∈ t.ids := by
  by_contra hid
  rw [take?_eq_none_iff_notMem.mpr hid] at htake
  cases htake

/-- What is taken waited at one miss, and the misses before and after it are left. -/
theorem WellFormed.split_of_take? (h : t.WellFormed) {reqs : List Lookup.Request}
    {rest : MissTable} (htake : t.take? id = some (reqs, rest)) :
    ∃ before miss after, t.misses = before ++ miss :: after ∧ id = miss.bufferId ∧
      reqs = miss.waiting ∧ rest = ⟨before ++ after⟩ := by
  obtain ⟨before, miss, after, hsplit, rfl⟩ := exists_split (mem_ids_of_take?_eq_some htake)
  rw [h.take?_of_split hsplit, Option.some.injEq, Prod.mk.injEq] at htake
  exact ⟨before, miss, after, hsplit, rfl, htake.1.symm, htake.2.symm⟩

/-- All questions of one miss leave together, and the table stays well-formed. -/
theorem WellFormed.of_take? (h : t.WellFormed) {reqs : List Lookup.Request} {rest : MissTable}
    (htake : t.take? id = some (reqs, rest)) :
    t.waiting = ↑reqs + rest.waiting ∧ rest.WellFormed ∧ (∀ req ∈ reqs, req.bufferId = id) ∧
      ∃ first ∈ reqs, t.heads = {first} + rest.heads := by
  obtain ⟨before, miss, after, hsplit, rfl, rfl, rfl⟩ := h.split_of_take? htake
  obtain ⟨first, others, hwait⟩ :=
    List.exists_cons_of_ne_nil (h.ne_nil miss (by rw [hsplit]; simp))
  refine ⟨?_, h.of_split hsplit, h.same_id miss (by rw [hsplit]; simp), first, by simp [hwait], ?_⟩
  · simp only [waiting, hsplit, List.flatMap_append, List.flatMap_cons, ← Multiset.coe_add]
    abel
  · simp only [heads, hsplit, hwait, List.filterMap_append, List.filterMap_cons, List.head?_cons,
      ← Multiset.coe_add, ← Multiset.cons_coe, ← Multiset.singleton_add]
    abel

/-! ## Counting misses -/

/-- The first questions are for different buffers: those with a pending miss. -/
theorem WellFormed.map_heads (h : t.WellFormed) : t.heads.map (·.bufferId) = ↑t.ids := by
  rw [heads, Multiset.map_coe, List.map_filterMap, ids, ← List.filterMap_eq_map]
  congr 1
  refine List.filterMap_congr fun miss hmem => ?_
  obtain ⟨first, others, hwait⟩ := List.exists_cons_of_ne_nil (h.ne_nil miss hmem)
  simp [hwait, h.same_id miss hmem first (by simp [hwait])]

theorem heads_le_waiting (t : MissTable) : t.heads ≤ t.waiting := by
  obtain ⟨misses⟩ := t
  rw [heads, waiting, Multiset.coe_le]
  refine List.Sublist.subperm ?_
  induction misses with
  | nil => exact List.Sublist.refl _
  | cons miss misses ih =>
    rw [List.flatMap_cons]
    rcases hwait : miss.waiting with _ | ⟨first, others⟩
    · simpa [hwait] using ih
    · rw [List.filterMap_cons_some (by rw [hwait]; rfl), List.cons_append]
      exact (ih.trans (List.sublist_append_right _ _)).cons_cons first

/-- The answer to a first question meets its miss. -/
theorem WellFormed.take?_of_mem_heads (h : t.WellFormed) (hreq : req ∈ t.heads) :
    ∃ reqs rest, t.take? req.bufferId = some (reqs, rest) ∧ t.heads = {req} + rest.heads := by
  have hid : req.bufferId ∈ t.ids := by
    rw [← Multiset.mem_coe, ← h.map_heads]
    exact Multiset.mem_map_of_mem _ hreq
  obtain ⟨before, miss, after, hsplit, hmiss⟩ := exists_split hid
  refine ⟨miss.waiting, ⟨before ++ after⟩, hmiss ▸ h.take?_of_split hsplit, ?_⟩
  obtain ⟨-, hwf, -, first, -, hheads⟩ := h.of_take? (h.take?_of_split hsplit)
  -- no other miss has a first question for the same buffer
  have hne : req ∉ heads ⟨before ++ after⟩ := by
    intro hmem
    have hmem' := Multiset.mem_map_of_mem (·.bufferId) hmem
    rw [hwf.map_heads, Multiset.mem_coe] at hmem'
    obtain ⟨other, hother, heq⟩ := List.mem_map.mp hmem'
    exact h.ne_of_split hsplit other hother (heq.trans hmiss.symm)
  rw [hheads, Multiset.mem_add, Multiset.mem_singleton] at hreq
  rw [hheads, hreq.resolve_right hne]

/-- There are as many first questions as pending misses. -/
theorem WellFormed.card_heads (h : t.WellFormed) : t.heads.card = t.size := by
  have hcard := congrArg Multiset.card h.map_heads
  rw [Multiset.card_map, Multiset.coe_card, ids, List.length_map] at hcard
  exact hcard

/-- A table without a first question has no miss. -/
theorem WellFormed.isEmpty_of_heads (h : t.WellFormed) (hheads : t.heads = 0) :
    t.isEmpty = true := by
  have hsize := h.card_heads
  rw [hheads, Multiset.card_zero, size, eq_comm, List.length_eq_zero_iff] at hsize
  rw [isEmpty, hsize, List.isEmpty_nil]

/-- A table without a miss has nobody waiting. -/
theorem heads_eq_zero_of_isEmpty (h : t.isEmpty = true) : t.heads = 0 ∧ t.waiting = 0 := by
  rw [isEmpty, List.isEmpty_iff] at h
  simp [heads, waiting, h]

/-! ## Buffers with a pending miss -/

theorem mem_ids_add : id ∈ (t.add req).ids ↔ id ∈ t.ids ∨ id = req.bufferId := by
  rw [MissTable.add]
  split
  · rename_i hc
    have hids : ids ⟨t.misses.map fun miss => if miss.bufferId == req.bufferId
        then { miss with waiting := miss.waiting ++ [req] } else miss⟩ = t.ids := by
      rw [ids, ids, List.map_map]
      refine List.map_congr_left fun miss _ => ?_
      rw [Function.comp_apply]
      split <;> rfl
    rw [hids, iff_self_or]
    rintro rfl
    exact contains_iff.mp hc
  · simp [ids]

theorem mem_ids_of_take? {reqs : List Lookup.Request} {rest : MissTable} {other : BufferId}
    (htake : t.take? id = some (reqs, rest)) : other ∈ rest.ids ↔ other ∈ t.ids ∧ other ≠ id := by
  rw [take?] at htake
  split at htake
  · cases htake
  · cases htake
    simp only [ids, List.mem_map, List.mem_filter, bne_iff_ne]
    constructor
    · rintro ⟨miss, ⟨hmem, hne⟩, rfl⟩
      exact ⟨⟨miss, hmem, rfl⟩, hne⟩
    · rintro ⟨⟨miss, hmem, rfl⟩, hne⟩
      exact ⟨miss, ⟨hmem, hne⟩, rfl⟩

/-! ## The order of the questions for one buffer -/

/-- All questions that wait, miss by miss. -/
def inTurn (t : MissTable) : List Lookup.Request := t.misses.flatMap (·.waiting)

/-- Nobody waits for a buffer at the misses of others. -/
theorem WellFormed.filter_waiting_eq_nil (h : t.WellFormed) {misses : List Miss}
    (hsub : misses ⊆ t.misses) (hne : ∀ miss ∈ misses, miss.bufferId ≠ id) :
    (misses.flatMap (·.waiting)).filter (·.bufferId = id) = [] := by
  rw [List.filter_eq_nil_iff]
  intro req hreq hid
  obtain ⟨miss, hmem, hwait⟩ := List.mem_flatMap.mp hreq
  rw [decide_eq_true_eq, h.same_id miss (hsub hmem) req hwait] at hid
  exact hne miss hmem hid

theorem WellFormed.filter_inTurn_eq_nil (h : t.WellFormed) (hid : id ∉ t.ids) :
    t.inTurn.filter (·.bufferId = id) = [] :=
  h.filter_waiting_eq_nil (List.Subset.refl _) fun _ hmem heq =>
    hid (heq ▸ List.mem_map_of_mem hmem)

/-- The questions for one buffer are those at its miss, and nobody else is in turn with them. -/
theorem WellFormed.filter_inTurn_of_split (h : t.WellFormed) {before after : List Miss}
    {miss : Miss} (hsplit : t.misses = before ++ miss :: after) :
    (before.flatMap (·.waiting)).filter (·.bufferId = miss.bufferId) = [] ∧
      (after.flatMap (·.waiting)).filter (·.bufferId = miss.bufferId) = [] := by
  have hne := h.ne_of_split hsplit
  refine ⟨h.filter_waiting_eq_nil (fun other hmem => ?_)
      fun other hmem => hne other (List.mem_append_left _ hmem),
    h.filter_waiting_eq_nil (fun other hmem => ?_)
      fun other hmem => hne other (List.mem_append_right _ hmem)⟩
  · rw [hsplit]
    exact List.mem_append_left _ hmem
  · rw [hsplit]
    exact List.mem_append_right _ (List.mem_cons_of_mem _ hmem)

/-- A question that joins the table waits behind all others for its buffer. -/
theorem WellFormed.filter_inTurn_add (h : t.WellFormed) (req : Lookup.Request) (id : BufferId) :
    (t.add req).inTurn.filter (·.bufferId = id)
      = t.inTurn.filter (·.bufferId = id) ++ [req].filter (·.bufferId = id) := by
  rcases hc : t.contains req.bufferId with _ | _
  · simp [MissTable.add, hc, inTurn]
  · obtain ⟨before, miss, after, hsplit, hmiss⟩ := exists_split (contains_iff.mp hc)
    rw [h.add_of_split hsplit hmiss]
    simp only [inTurn, hsplit, List.flatMap_append, List.flatMap_cons, List.filter_append,
      List.append_assoc, List.append_cancel_left_eq]
    by_cases hid : req.bufferId = id
    · rw [← hid, ← hmiss, (h.filter_inTurn_of_split hsplit).2, List.append_nil, List.nil_append]
    · rw [List.filter_cons_of_neg (by simpa using hid), List.filter_nil, List.nil_append,
        List.append_nil]

/-- The questions of a miss leave the table in the order in which they waited. -/
theorem WellFormed.filter_inTurn_of_take? (h : t.WellFormed) {taken : BufferId}
    {reqs : List Lookup.Request} {rest : MissTable} (htake : t.take? taken = some (reqs, rest))
    (id : BufferId) :
    t.inTurn.filter (·.bufferId = id)
      = reqs.filter (·.bufferId = id) ++ rest.inTurn.filter (·.bufferId = id) := by
  obtain ⟨before, miss, after, hsplit, rfl, rfl, rfl⟩ := h.split_of_take? htake
  simp only [inTurn, hsplit, List.flatMap_append, List.flatMap_cons, List.filter_append]
  by_cases hid : miss.bufferId = id
  · obtain ⟨hbefore, hafter⟩ := h.filter_inTurn_of_split hsplit
    rw [← hid, hbefore, hafter]
    rfl
  · have hmiss : miss.waiting.filter (·.bufferId = id) = [] := by
      rw [← List.flatMap_singleton Miss.waiting miss]
      exact h.filter_waiting_eq_nil (by rw [hsplit]; simp) (by simpa using hid)
    rw [hmiss]
    rfl

end BoundsCheck.MissTable
