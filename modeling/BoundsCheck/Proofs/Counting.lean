import BoundsCheck.Proofs.Lines

/-!
# Counting what a cache does

What a cycle of a cache takes in, sends and passes on, and that the counters of the cache tell it:
each lookup is answered at once, starts a miss or joins one; each miss is pending or has met its
response; and each entry that came in is held or was evicted.

* `RangeCache.requests_cycle`, `RangeCache.responses_cycle`, `RangeCache.forwards_cycle` — lookups
  taken in, answers sent, lookups passed on.
* `RangeCache.Counted` — what the counters tell, given the responses that the cache has taken in.
* `RangeCache.Counted.cycle` — they tell it after a cycle as well.
-/

set_option autoImplicit false

namespace BoundsCheck

open Lookup

/-! ## Sizes of a miss table -/

namespace MissTable

variable {t : MissTable}

theorem size_add (t : MissTable) (req : Request) :
    (t.add req).size = t.size + if t.contains req.bufferId then 0 else 1 := by
  rw [add]
  split
  · rw [size, List.length_map, size, Nat.add_zero]
  · rw [size, List.length_append, List.length_singleton, size]

theorem WellFormed.size_of_take? (h : t.WellFormed) {id : BufferId} {reqs : List Request}
    {rest : MissTable} (htake : t.take? id = some (reqs, rest)) : t.size = rest.size + 1 := by
  obtain ⟨-, hrest, -, first, -, hheads⟩ := h.of_take? htake
  rw [← h.card_heads, hheads, Multiset.card_add, Multiset.card_singleton, hrest.card_heads,
    Nat.add_comm]

end MissTable

namespace Port

variable {α : Type}

theorem sendAll_nil (delay now : Nat) (p : Port α) : p.sendAll [] delay now = p := by
  rw [sendAll, List.map_nil, List.append_nil]

theorem send_sendAll (items : List α) (item : α) (delay now : Nat) (p : Port α) :
    (p.sendAll items delay now).send item delay now = p.sendAll (items ++ [item]) delay now := by
  simp [send, sendAll]

/-- What was put on a port since it was as before. -/
def added (before after : Port α) : List α := after.items.drop before.items.length

/-- What was taken off a port since it was as before. -/
def removed (before after : Port α) : List α :=
  before.items.take (before.items.length - after.items.length)

@[simp] theorem added_self (p : Port α) : p.added p = [] := by
  simp [added]

@[simp] theorem added_send (item : α) (delay now : Nat) (p : Port α) :
    p.added (p.send item delay now) = [item] := by
  simp [added]

@[simp] theorem added_sendAll (items : List α) (delay now : Nat) (p : Port α) :
    p.added (p.sendAll items delay now) = items := by
  simp [added]

@[simp] theorem removed_self (p : Port α) : p.removed p = [] := by
  simp [removed]

theorem removed_of_pop? {p rest : Port α} {now : Nat} {packet : Packet α}
    (hpop : p.pop? now = some (packet, rest)) : p.removed rest = [packet.item] := by
  simp [removed, items_of_pop? hpop]

end Port

/-! ## What a cycle does to the port of a cache -/

namespace RangeCache

variable {c : RangeCache} {now : Nat} {lower : Lookup.Link}

/-- Either no response is visible, or one is taken in. -/
theorem takeResponse_cases (now : Nat) (lower : Lookup.Link) (c : RangeCache) :
    (lower.responses.pop? now = none ∧ c.takeResponse now lower = (c, lower)) ∨
      ∃ packet rest, lower.responses.pop? now = some (packet, rest) ∧
        c.takeResponse now lower = (c.fill now packet.item, { lower with responses := rest }) := by
  rcases hpop : lower.responses.pop? now with _ | ⟨packet, rest⟩
  · exact .inl ⟨rfl, by rw [takeResponse, hpop]⟩
  · exact .inr ⟨packet, rest, rfl, by rw [takeResponse, hpop]⟩

@[simp] theorem port_taken (now : Nat) (packet : Packet Request) (rest : Port Request)
    (c : RangeCache) : (c.taken now packet rest).port = { c.port with requests := rest } := rfl

/-- Either nobody waits for a response, or all who wait are answered. -/
theorem fill_cases (now : Nat) (rsp : Response) (c : RangeCache) :
    (rsp.bufferId ∉ c.misses.ids ∧ c.fill now rsp = c.keep rsp) ∨
      ∃ reqs misses, c.misses.take? rsp.bufferId = some (reqs, misses) ∧
        c.fill now rsp = { c.keep rsp with
          misses := misses
          port.responses := c.port.responses.sendAll (reqs.map (·.answer rsp.entry))
            c.config.hitLatency.toNat now } := by
  rcases htake : c.misses.take? rsp.bufferId with _ | ⟨reqs, misses⟩
  · refine .inl ⟨fun hid => ?_, by simp only [fill, answerWaiting, misses_keep, htake]⟩
    exact MissTable.take?_eq_none_iff_notMem.mp htake hid
  · refine .inr ⟨reqs, misses, rfl, ?_⟩
    simp only [fill, answerWaiting, misses_keep, htake, port_keep, config_keep]

/-- Either no lookup is visible, or one is taken in: its entry is held, or awaited already, or it is
passed on. -/
theorem takeRequest_cases (h : c.misses.WellFormed) (now : Nat) (lower : Lookup.Link) :
    (c.port.requests.pop? now = none ∧ c.takeRequest now lower = (c, lower)) ∨
      ∃ packet rest, c.port.requests.pop? now = some (packet, rest) ∧
        ((∃ entry, c.lines.get? packet.item.bufferId = some entry ∧
            c.takeRequest now lower
              = ((c.taken now packet rest).hit now packet.item entry, lower)) ∨
          (packet.item.bufferId ∉ c.lines.ids ∧ packet.item.bufferId ∈ c.misses.ids ∧
            c.takeRequest now lower = ((c.taken now packet rest).mergeMiss packet.item, lower)) ∨
          (packet.item.bufferId ∉ c.lines.ids ∧ packet.item.bufferId ∉ c.misses.ids ∧
            c.takeRequest now lower = ((c.taken now packet rest).readMiss packet.item,
              lower.request packet.item c.config.forwardingLatency.toNat now))) := by
  rcases hpop : c.port.requests.pop? now with _ | ⟨packet, rest⟩
  · exact .inl ⟨rfl, by rw [takeRequest, hpop]⟩
  · refine .inr ⟨packet, rest, rfl, ?_⟩
    have haccess : c.takeRequest now lower
        = (c.taken now packet rest).access now packet.item lower := takeRequest_of_pop? hpop
    have hmerges : (c.taken now packet rest).misses.merges packet.item
        = c.misses.contains packet.item.bufferId := h.merges_eq packet.item
    rw [access] at haccess
    rcases hget : c.lines.get? packet.item.bufferId with _ | entry
    · have hheld := LineSet.get?_eq_none_iff.mp hget
      have hnone : (c.taken now packet rest).lines.get? packet.item.bufferId = none := hget
      simp only [hnone, hmerges] at haccess
      by_cases hid : packet.item.bufferId ∈ c.misses.ids
      · rw [if_pos (MissTable.contains_iff.mpr hid)] at haccess
        exact .inr (.inl ⟨hheld, hid, haccess⟩)
      · rw [if_neg (by rwa [MissTable.contains_iff])] at haccess
        exact .inr (.inr ⟨hheld, hid, haccess⟩)
    · have hsome : (c.taken now packet rest).lines.get? packet.item.bufferId = some entry := hget
      simp only [hsome] at haccess
      exact .inl ⟨entry, rfl, haccess⟩

/-- A response from below changes no counter but that of evictions. -/
theorem stats_fill (now : Nat) (rsp : Response) (c : RangeCache) :
    (c.fill now rsp).stats = { c.stats with evictions := (c.keep rsp).stats.evictions } := by
  have hkeep : (c.keep rsp).stats
      = { c.stats with evictions := (c.keep rsp).stats.evictions } := by
    rw [keep]
    split <;> rfl
  rw [fill, answerWaiting]
  split
  · exact hkeep
  · exact hkeep

theorem stats_takeResponse (now : Nat) (lower : Lookup.Link) (c : RangeCache) :
    ∃ evictions, (c.takeResponse now lower).1.stats = { c.stats with evictions } := by
  rw [takeResponse]
  split
  · exact ⟨_, rfl⟩
  · exact ⟨_, stats_fill now _ c⟩

/-- In a cycle a cache takes in at most one lookup, the next one, and counts it. -/
theorem requests_cycle (now : Nat) (lower : Lookup.Link) (c : RangeCache) :
    ∃ taken : List Request,
      c.port.requests.items = taken ++ (c.cycle now lower).1.port.requests.items ∧
        (c.cycle now lower).1.stats.reads = c.stats.reads + taken.length := by
  obtain ⟨evictions, hstats⟩ := stats_takeResponse now lower c.countWaiting
  have hrequests := (requests_takeResponse now lower c.countWaiting).1
  change _ = c.port.requests at hrequests
  have hreads : (c.countWaiting.takeResponse now lower).1.stats.reads = c.stats.reads := by
    rw [hstats]
    rfl
  rw [cycle_eq, ← hreads, ← hrequests]
  generalize (c.countWaiting.takeResponse now lower).1 = d
  rcases hpop : d.port.requests.pop? now with _ | ⟨packet, rest⟩
  · exact ⟨[], by rw [takeRequest, hpop]; rfl, by rw [takeRequest, hpop]; rfl⟩
  · refine ⟨[packet.item], ?_, ?_⟩
    · rw [takeRequest_of_pop? hpop, requests_access, Port.items_of_pop? hpop]
      rfl
    · rw [takeRequest_of_pop? hpop, access]
      split
      · rfl
      · split <;> rfl

/-- In a cycle a cache passes at most one lookup on, behind all others, and counts it. -/
theorem forwards_cycle (now : Nat) (lower : Lookup.Link) (c : RangeCache) :
    ∃ passed : List Request,
      (c.cycle now lower).2.requests
          = lower.requests.sendAll passed c.config.forwardingLatency.toNat now ∧
        (c.cycle now lower).1.stats.readMisses = c.stats.readMisses + passed.length := by
  obtain ⟨evictions, hstats⟩ := stats_takeResponse now lower c.countWaiting
  have hrequests := (requests_takeResponse now lower c.countWaiting).2
  have hmisses : (c.countWaiting.takeResponse now lower).1.stats.readMisses
      = c.stats.readMisses := by
    rw [hstats]
    rfl
  have hconfig : c.config = (c.countWaiting.takeResponse now lower).1.config :=
    (config_takeResponse now lower c.countWaiting).symm
  rw [cycle_eq, ← hmisses, ← hrequests, hconfig]
  generalize (c.countWaiting.takeResponse now lower).1 = d
  generalize (c.countWaiting.takeResponse now lower).2 = link
  rcases hpop : d.port.requests.pop? now with _ | ⟨packet, rest⟩
  · exact ⟨[], by rw [takeRequest, hpop, Port.sendAll_nil], by rw [takeRequest, hpop]; rfl⟩
  · rw [takeRequest_of_pop? hpop, access]
    split
    · exact ⟨[], (Port.sendAll_nil _ _ _).symm, rfl⟩
    · split
      · exact ⟨[], (Port.sendAll_nil _ _ _).symm, rfl⟩
      · exact ⟨[packet.item], rfl, rfl⟩

/-- All answers that a cache sends in a cycle take as long as its configuration says. -/
theorem responses_cycle (now : Nat) (lower : Lookup.Link) (c : RangeCache) :
    ∃ answers : List Response, (c.cycle now lower).1.port.responses
      = c.port.responses.sendAll answers c.config.hitLatency.toNat now := by
  have hfill : ∃ answers : List Response, (c.countWaiting.takeResponse now lower).1.port.responses
      = c.port.responses.sendAll answers c.config.hitLatency.toNat now := by
    rw [takeResponse]
    split
    · exact ⟨[], (Port.sendAll_nil _ _ _).symm⟩
    · rw [fill, answerWaiting]
      split
      · exact ⟨[], by rw [port_keep, Port.sendAll_nil]; rfl⟩
      · exact ⟨_, by rw [config_keep, port_keep]; rfl⟩
  have hconfig := config_takeResponse now lower c.countWaiting
  obtain ⟨answers, hanswers⟩ := hfill
  rw [cycle_eq]
  generalize (c.countWaiting.takeResponse now lower).1 = d at hconfig hanswers
  change d.config = c.config at hconfig
  rcases hpop : d.port.requests.pop? now with _ | ⟨packet, rest⟩
  · exact ⟨answers, by rw [takeRequest, hpop]; exact hanswers⟩
  · rw [takeRequest_of_pop? hpop, access]
    split
    · rename_i entry _
      refine ⟨answers ++ [packet.item.answer entry], ?_⟩
      show d.port.responses.send _ d.config.hitLatency.toNat now = _
      rw [hanswers, hconfig, Port.send_sendAll]
    · split
      · exact ⟨answers, hanswers⟩
      · exact ⟨answers, hanswers⟩

/-! ## Counters -/

/-- The response that a cache takes in from below, if any. -/
def received (now : Nat) (lower : Lookup.Link) : List Response :=
  ((lower.responses.pop? now).map (·.1.item)).toList

/-- The counters of a cache, given the responses that it has taken in. -/
structure Counted (filled : List Response) (c : RangeCache) : Prop where
  /-- Each lookup is answered at once, starts a miss or joins one. -/
  reads : c.stats.reads = c.stats.hits + c.stats.readMisses + c.stats.mergedMisses
  /-- Each miss is pending or has met its response. -/
  misses : c.stats.readMisses = c.misses.size + filled.length
  /-- Each entry that came in is held or was evicted. -/
  lines : filled.countP isRealEntry = c.lines.size + c.stats.evictions

/-- An entry that comes in is new, and so takes a place or the place of another one. -/
theorem size_keep {rsp : Response} (h : c.lines.contains rsp.bufferId = false) :
    (c.keep rsp).lines.size + (c.keep rsp).stats.evictions
      = c.lines.size + c.stats.evictions + [rsp].countP isRealEntry := by
  rw [keep, List.countP_singleton]
  split
  · rename_i hreal
    rw [isRealEntry, Bool.and_eq_true, beq_iff_eq] at hreal
    rw [← hreal.2] at h
    have hsize := LineSet.size_add h
    simp only
    omega
  · rfl

theorem Counted.fill {filled : List Response} (h : c.Counted filled) (hwf : c.misses.WellFormed)
    (htidy : c.Tidy) {rsp : Response} (hrsp : rsp.question ∈ c.misses.heads) (now : Nat) :
    (c.fill now rsp).Counted (filled ++ [rsp]) := by
  obtain ⟨reqs, misses, htake, -⟩ := hwf.take?_of_mem_heads hrsp
  change c.misses.take? rsp.bufferId = _ at htake
  have hid : rsp.bufferId ∈ c.misses.ids := MissTable.mem_ids_of_take?_eq_some htake
  have hlines := size_keep (htidy.contains_eq_false hid)
  have hsize := hwf.size_of_take? htake
  have hmisses : (c.fill now rsp).misses = misses := by
    simp only [RangeCache.fill, answerWaiting, misses_keep, htake]
  have hstats := stats_fill now rsp c
  refine ⟨?_, ?_, ?_⟩
  · rw [hstats]
    exact h.reads
  · have hcount := h.misses
    rw [hmisses, hstats, List.length_append, List.length_singleton]
    simp only
    omega
  · rw [hstats, List.countP_append, h.lines, ← hlines, RangeCache.fill, lines_answerWaiting]

theorem Counted.takeRequest {filled : List Response} (h : c.Counted filled)
    (hwf : c.misses.WellFormed) (htidy : c.Tidy) (now : Nat) (lower : Lookup.Link) :
    (c.takeRequest now lower).1.Counted filled := by
  rcases hpop : c.port.requests.pop? now with _ | ⟨packet, rest⟩
  · rwa [RangeCache.takeRequest, hpop]
  · obtain ⟨hreads, hmisses, hlines⟩ := h
    have hmerges : (c.taken now packet rest).misses.merges packet.item
        = c.misses.contains packet.item.bufferId := hwf.merges_eq packet.item
    have hsize := c.misses.size_add packet.item
    rw [takeRequest_of_pop? hpop, RangeCache.access]
    split
    · have hperm := (LineSet.ids_touch_perm htidy.nodup packet.item.bufferId).length_eq
      refine ⟨?_, hmisses, ?_⟩
      · show c.stats.reads + 1 = c.stats.hits + 1 + c.stats.readMisses + c.stats.mergedMisses
        omega
      · show _ = (c.lines.touch packet.item.bufferId).size + c.stats.evictions
        rw [LineSet.size_eq_length_ids, hperm, ← LineSet.size_eq_length_ids]
        exact hlines
    · rw [hmerges]
      split
      · rename_i hc
        rw [if_pos hc] at hsize
        refine ⟨?_, ?_, hlines⟩
        · show c.stats.reads + 1 = c.stats.hits + c.stats.readMisses + (c.stats.mergedMisses + 1)
          omega
        · show c.stats.readMisses = (c.misses.add packet.item).size + filled.length
          omega
      · rename_i hc
        rw [if_neg hc] at hsize
        refine ⟨?_, ?_, hlines⟩
        · show c.stats.reads + 1 = c.stats.hits + (c.stats.readMisses + 1) + c.stats.mergedMisses
          omega
        · show c.stats.readMisses + 1 = (c.misses.add packet.item).size + filled.length
          omega

/-- **The counters of a cache tell what it did**, as long as it gets no response but to the first
lookups of its misses. -/
theorem Counted.cycle {filled : List Response} (h : c.Counted filled) (hwf : c.misses.WellFormed)
    (htidy : c.Tidy) {rest : Multiset Request} (hbelow : underway lower + rest = c.misses.heads)
    (now : Nat) : (c.cycle now lower).1.Counted (filled ++ received now lower) := by
  have hcount : c.countWaiting.Tidy := htidy.congr rfl rfl
  rw [cycle_eq]
  refine Counted.takeRequest ?_ (wellFormed_takeResponse (c := c.countWaiting) hwf now lower)
    (hcount.takeResponse now lower) now _
  rw [RangeCache.takeResponse, received]
  rcases hpop : lower.responses.pop? now with _ | ⟨packet, others⟩
  · rw [Option.map_none, Option.toList_none, List.append_nil]
    exact ⟨h.reads, h.misses, h.lines⟩
  · refine Counted.fill (c := c.countWaiting) ⟨h.reads, h.misses, h.lines⟩ hwf hcount ?_ now
    show packet.item.question ∈ c.misses.heads
    rw [← hbelow]
    exact Multiset.mem_add.mpr (.inl (mem_underway_of_pop?_responses hpop))

end RangeCache

end BoundsCheck
