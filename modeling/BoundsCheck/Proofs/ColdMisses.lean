import BoundsCheck.Proofs.Verdicts
import BoundsCheck.Proofs.Watching

/-!
# Cold misses

A cache with room for all entries of the table never has to give one up.  Once it has asked for the
entry of a buffer, it waits for it or holds it, and so it does not ask a second time.  A lookup of a
buffer that the table does not know brings the sentinel, which is not held, and may be passed on
again and again.  So all misses but those of unknown buffers are cold, and there are no more of them
than entries, whatever traces are run and in whatever order they ask.

* `RangeCache.Settled` — whatever was asked for is awaited or held, and nothing was given up.
* `RangeCache.Settled.cycle` — a cycle keeps this.
* `RangeCache.OnlyCold` — the misses of a cache are cold.
* `Drive.only_cold_misses` — those of each cache with room for the table are, whatever is asked.
-/

set_option autoImplicit false

namespace BoundsCheck

open Lookup

/-! ## Listed buffers -/

namespace Config

variable {c : Config} {id : BufferId}

/-- The table has an entry for the buffer. -/
def lists (c : Config) (id : BufferId) : Bool := (c.entry? id).isSome

theorem lists_iff : c.lists id = true ↔ id ∈ c.table.entries.map (·.bufferId) := by
  simp [lists, entry?]

/-- Different listed buffers are no more than there are entries. -/
theorem length_le_of_lists {ids : List BufferId} (hnodup : ids.Nodup)
    (hlists : ∀ id ∈ ids, c.lists id = true) : ids.length ≤ c.table.entries.length := by
  have hsub : ids ⊆ c.table.entries.map (·.bufferId) := fun id hid => lists_iff.mp (hlists id hid)
  simpa using (List.subperm_of_subset hnodup hsub).length_le

/-- If each listed buffer is asked for at most once, the questions for listed buffers are no more
than there are entries. -/
theorem countP_lists_le {reqs : List Request}
    (honce : ∀ id, c.lists id = true → reqs.countP (·.bufferId == id) ≤ 1) :
    reqs.countP (fun req => c.lists req.bufferId) ≤ c.table.entries.length := by
  have hlists : ∀ id ∈ (reqs.filter fun req => c.lists req.bufferId).map (·.bufferId),
      c.lists id = true := by
    intro id hid
    obtain ⟨req, hreq, rfl⟩ := List.mem_map.mp hid
    exact (List.mem_filter.mp hreq).2
  have hnodup : ((reqs.filter fun req => c.lists req.bufferId).map (·.bufferId)).Nodup := by
    refine List.nodup_iff_count_le_one.mpr fun id => ?_
    by_cases hid : c.lists id = true
    · rw [List.count, List.countP_map]
      exact (List.filter_sublist.countP_le).trans (honce id hid)
    · rw [List.count_eq_zero_of_not_mem fun hmem => hid (hlists id hmem)]
      exact Nat.zero_le 1
  have hlength := length_le_of_lists hnodup hlists
  rwa [List.length_map, ← List.countP_eq_length_filter] at hlength

end Config

/-- An answer brings a real entry exactly if the table has one for the buffer. -/
theorem RangeCache.isRealEntry_eq_lists {c : Config} (hc : c.Accepted) {rsp : Response}
    (hrsp : rsp.entry = c.answerFor rsp.bufferId) : isRealEntry rsp = c.lists rsp.bufferId := by
  rw [isRealEntry, hrsp, c.isSentinel_answerFor hc, Bool.not_not, Config.lists]
  rcases hentry : c.entry? rsp.bufferId with _ | entry
  · rfl
  · have hid : (entry.bufferId == rsp.bufferId) = true :=
      List.find?_some (p := fun entry : RangeEntry => entry.bufferId == rsp.bufferId) hentry
    rw [Config.answerFor, hentry, Option.getD_some, hid]
    rfl

/-! ## Settled caches -/

namespace RangeCache

/-- A cache with room for all entries of the table, given the lookups that it has passed on: it has
given up nothing, and holds or awaits all entries that it has asked for. -/
structure Settled (c : Config) (forwarded : List Request) (cache : RangeCache) : Prop where
  tidy : cache.Tidy
  room : c.table.entries.length ≤ cache.lines.capacity
  listed : ∀ id ∈ cache.lines.ids, c.lists id = true
  evictions : cache.stats.evictions = 0
  counted : cache.stats.readMisses = forwarded.length
  once : ∀ id, c.lists id = true → forwarded.countP (·.bufferId == id) ≤ 1
  met : ∀ req ∈ forwarded, c.lists req.bufferId = true →
    req.bufferId ∈ cache.lines.ids ∨ req.bufferId ∈ cache.misses.ids

variable {c : Config} {forwarded : List Request} {cache : RangeCache} {now : Nat}
  {lower : Lookup.Link}

/-- Only the entries that are held, the misses and two of the counters matter. -/
theorem Settled.congr (h : cache.Settled c forwarded) {next : RangeCache}
    (hlines : next.lines = cache.lines) (hmisses : next.misses = cache.misses)
    (hevictions : next.stats.evictions = cache.stats.evictions)
    (hreadMisses : next.stats.readMisses = cache.stats.readMisses) : next.Settled c forwarded := by
  refine ⟨h.tidy.congr hlines hmisses, ?_, ?_, hevictions.trans h.evictions,
    hreadMisses.trans h.counted, h.once, ?_⟩
  · rw [hlines]
    exact h.room
  · rw [hlines]
    exact h.listed
  · rw [hlines, hmisses]
    exact h.met

/-- **An entry that comes in finds room**: as long as it is not held, not all entries are. -/
theorem Settled.keep (h : cache.Settled c forwarded) (hc : c.Accepted) {rsp : Response}
    (hrsp : rsp.entry = c.answerFor rsp.bufferId) :
    (cache.keep rsp).lines.capacity = cache.lines.capacity ∧
      (cache.keep rsp).stats.evictions = 0 ∧
      ∀ id, id ∈ (cache.keep rsp).lines.ids ↔
        id ∈ cache.lines.ids ∨ (id = rsp.bufferId ∧ c.lists id = true) := by
  have hreal := isRealEntry_eq_lists hc hrsp
  by_cases hlists : c.lists rsp.bufferId = true
  · rw [hlists] at hreal
    have hid : rsp.entry.bufferId = rsp.bufferId := by
      rw [isRealEntry, Bool.and_eq_true, beq_iff_eq] at hreal
      exact hreal.2
    have hroom : rsp.entry.bufferId ∉ cache.lines.ids → cache.lines.size < cache.lines.capacity := by
      intro hnot
      have hlength := c.length_le_of_lists (List.nodup_cons.mpr ⟨hnot, h.tidy.nodup⟩)
        (List.forall_mem_cons.mpr ⟨by rwa [hid], h.listed⟩)
      rw [List.length_cons, ← LineSet.size_eq_length_ids] at hlength
      exact hlength.trans h.room
    obtain ⟨hvictim, hids⟩ := LineSet.add_of_room hroom
    rw [RangeCache.keep, if_pos hreal]
    refine ⟨LineSet.capacity_add _ _, ?_, fun id => ?_⟩
    · show cache.stats.evictions + (if (cache.lines.victim? rsp.entry).isSome then 1 else 0) = 0
      rw [hvictim, h.evictions]
      rfl
    · rw [hids, hid]
      exact or_congr_right ⟨fun heq => ⟨heq, heq ▸ hlists⟩, And.left⟩
  · rw [Bool.not_eq_true] at hlists
    rw [hlists] at hreal
    rw [RangeCache.keep, if_neg (by rw [hreal]; exact Bool.false_ne_true)]
    refine ⟨rfl, h.evictions, fun id => ⟨.inl, ?_⟩⟩
    rintro (hid | ⟨rfl, hid⟩)
    · exact hid
    · rw [hlists] at hid
      cases hid

theorem Settled.fill (h : cache.Settled c forwarded) (hc : c.Accepted) {rsp : Response}
    (hrsp : rsp.entry = c.answerFor rsp.bufferId) (now : Nat) :
    (cache.fill now rsp).Settled c forwarded := by
  obtain ⟨hcapacity, hevictions, hids⟩ := h.keep hc hrsp
  have hstats := stats_fill now rsp cache
  have hlines : (cache.fill now rsp).lines = (cache.keep rsp).lines := lines_answerWaiting now rsp _
  have hawaited : ∀ id ∈ cache.misses.ids, id ≠ rsp.bufferId → id ∈ (cache.fill now rsp).misses.ids := by
    intro id hid hne
    rcases fill_cases now rsp cache with ⟨-, hfill⟩ | ⟨reqs, misses, htake, hfill⟩
    · rw [hfill, misses_keep]
      exact hid
    · rw [hfill]
      exact (MissTable.mem_ids_of_take? htake).mpr ⟨hid, hne⟩
  refine ⟨h.tidy.fill now rsp, ?_, fun id hid => ?_, ?_, ?_, h.once, fun req hreq hlists => ?_⟩
  · rw [hlines, hcapacity]
    exact h.room
  · rw [hlines] at hid
    rcases (hids id).mp hid with hid | ⟨-, hid⟩
    · exact h.listed id hid
    · exact hid
  · rw [hstats]
    exact hevictions
  · rw [hstats]
    exact h.counted
  · rw [hlines]
    rcases h.met req hreq hlists with hheld | hmiss
    · exact .inl ((hids _).mpr (.inl hheld))
    · -- whoever was awaited is now held, or is awaited still
      by_cases hid : req.bufferId = rsp.bufferId
      · exact .inl ((hids _).mpr (.inr ⟨hid, hlists⟩))
      · exact .inr (hawaited _ hmiss hid)

theorem Settled.takeResponse (h : cache.Settled c forwarded) (hc : c.Accepted)
    (hlower : Answers c.answerFor lower) (now : Nat) :
    (cache.takeResponse now lower).1.Settled c forwarded := by
  rcases takeResponse_cases now lower cache with ⟨-, heq⟩ | ⟨packet, rest, hpop, heq⟩
  · rw [heq]
    exact h
  · rw [heq]
    exact h.fill hc (hlower.pop? hpop).1 now

/-- Whoever asks for a buffer that nobody has asked for is the first to. -/
theorem Settled.readMiss (h : cache.Settled c forwarded) {req : Request} {next : RangeCache}
    (htidy : next.Tidy) (hlines : next.lines = cache.lines)
    (hmisses : next.misses = cache.misses.add req)
    (hstats : next.stats.evictions = cache.stats.evictions ∧
      next.stats.readMisses = cache.stats.readMisses + 1)
    (hheld : req.bufferId ∉ cache.lines.ids) (hmiss : req.bufferId ∉ cache.misses.ids) :
    next.Settled c (forwarded ++ [req]) := by
  refine ⟨htidy, ?_, fun id hid => ?_, ?_, ?_, fun id hlists => ?_, fun other hother hlists => ?_⟩
  · rw [hlines]
    exact h.room
  · rw [hlines] at hid
    exact h.listed id hid
  · rw [hstats.1, h.evictions]
  · rw [hstats.2, h.counted, List.length_append, List.length_singleton]
  · rw [List.countP_append, List.countP_singleton]
    by_cases hid : req.bufferId = id
    · -- what was asked for before is held or awaited
      have hnone : forwarded.countP (·.bufferId == id) = 0 := by
        refine List.countP_eq_zero.mpr fun other hother heq => ?_
        have hother_id : other.bufferId = req.bufferId := (beq_iff_eq.mp heq).trans hid.symm
        have hmet := h.met other hother (by rwa [hother_id, hid])
        rw [hother_id] at hmet
        exact hmet.elim hheld hmiss
      rw [hnone, if_pos (beq_iff_eq.mpr hid)]
    · rw [if_neg (by rwa [beq_iff_eq])]
      exact h.once id hlists
  · rw [hlines, hmisses]
    rcases List.mem_append.mp hother with hother | hother
    · rcases h.met other hother hlists with hid | hid
      · exact .inl hid
      · exact .inr (MissTable.mem_ids_add.mpr (.inl hid))
    · cases List.mem_singleton.mp hother
      exact .inr (MissTable.mem_ids_add.mpr (.inr rfl))

theorem Settled.takeRequest (h : cache.Settled c forwarded) (hwf : cache.misses.WellFormed)
    (now : Nat) (lower : Lookup.Link) :
    (cache.takeRequest now lower).1.Settled c
      (forwarded ++ lower.requests.added (cache.takeRequest now lower).2.requests) := by
  have htidy := h.tidy.takeRequest now lower
  rcases takeRequest_cases hwf now lower with ⟨-, heq⟩ | ⟨packet, rest, -, hcases⟩
  · rw [heq, Port.added_self, List.append_nil]
    exact h
  · rcases hcases with ⟨entry, -, heq⟩ | ⟨-, -, heq⟩ | ⟨hheld, hmiss, heq⟩
    · rw [heq] at htidy
      have hids := LineSet.ids_touch_perm h.tidy.nodup packet.item.bufferId
      rw [heq, Port.added_self, List.append_nil]
      refine ⟨htidy, ?_, fun id hid => h.listed id (hids.mem_iff.mp hid), h.evictions, h.counted,
        h.once, fun req hreq hlists => ?_⟩
      · exact h.room.trans_eq (LineSet.capacity_touch _ _).symm
      · exact (h.met req hreq hlists).imp_left hids.mem_iff.mpr
    · rw [heq] at htidy
      rw [heq, Port.added_self, List.append_nil]
      exact ⟨htidy, h.room, h.listed, h.evictions, h.counted, h.once, fun req hreq hlists =>
        (h.met req hreq hlists).imp_right fun hid => MissTable.mem_ids_add.mpr (.inl hid)⟩
    · rw [heq] at htidy
      rw [heq, Link.request, Port.added_send]
      exact h.readMiss htidy rfl rfl ⟨rfl, rfl⟩ hheld hmiss

/-- **A cycle keeps a cache settled**, as long as the answers from below are right. -/
theorem Settled.cycle (h : cache.Settled c forwarded) (hc : c.Accepted)
    (hwf : cache.misses.WellFormed) (hlower : Answers c.answerFor lower) (now : Nat) :
    (cache.cycle now lower).1.Settled c (forwarded ++ cache.forwards now lower) := by
  have hcount : cache.countWaiting.Settled c forwarded := h.congr rfl rfl rfl rfl
  have hrequest := (hcount.takeResponse hc hlower now).takeRequest
    (wellFormed_takeResponse (c := cache.countWaiting) hwf now lower) now
    (cache.countWaiting.takeResponse now lower).2
  rwa [(requests_takeResponse now lower cache.countWaiting).2] at hrequest

/-- A cache that has done nothing is settled, if it has room. -/
theorem settled_of_idle (hlines : cache.lines.lines = []) (hstats : cache.stats = {})
    (hroom : c.table.entries.length ≤ cache.lines.capacity) : cache.Settled c [] := by
  have hids : cache.lines.ids = [] := by rw [LineSet.ids, hlines, List.map_nil]
  refine ⟨⟨?_, fun id hid => ?_⟩, hroom, fun id hid => ?_, ?_, ?_, fun _ _ => Nat.zero_le 1,
    fun _ hreq => absurd hreq List.not_mem_nil⟩
  · rw [hids]
    exact List.nodup_nil
  · rw [hids] at hid
    exact absurd hid List.not_mem_nil
  · rw [hids] at hid
    exact absurd hid List.not_mem_nil
  · rw [hstats]
  · rw [hstats]
    rfl

/-- The misses of a cache are cold but for those of buffers that the table does not know. -/
structure OnlyCold (c : Config) (forwarded : List Request) (cache : RangeCache) : Prop where
  /-- Nothing was evicted. -/
  evictions : cache.stats.evictions = 0
  /-- No buffer of the table was asked for twice. -/
  once : ∀ entry ∈ c.table.entries, forwarded.countP (·.bufferId == entry.bufferId) ≤ 1
  /-- The misses are the lookups that were passed on. -/
  counted : cache.stats.readMisses = forwarded.length
  /-- But for the lookups of unknown buffers, there are no more misses than entries. -/
  readMisses_le : cache.stats.readMisses
    ≤ c.table.entries.length + forwarded.countP fun req => !c.lists req.bufferId

theorem Settled.onlyCold (h : cache.Settled c forwarded) : cache.OnlyCold c forwarded where
  evictions := h.evictions
  once entry hentry := h.once _ (Config.lists_iff.mpr (List.mem_map_of_mem hentry))
  counted := h.counted
  readMisses_le := by
    have hlength := forwarded.length_eq_countP_add_countP fun req => c.lists req.bufferId
    have hlisted := Config.countP_lists_le h.once
    rw [h.counted]
    simpa using hlength.trans_le (Nat.add_le_add_right hlisted _)

end RangeCache

/-! ## The table -/

namespace RangeTable

theorem counts_known_foldl_serve (now : Nat) (packets : List (Packet Request)) (t : RangeTable) :
    (packets.foldl (serve now) t).stats.lookups = t.stats.lookups + packets.length ∧
      (packets.foldl (serve now) t).stats.unknownBufferIds = t.stats.unknownBufferIds
        + packets.countP fun packet => !(t.get? packet.item.bufferId).isSome := by
  rw [stats_foldl_serve]
  exact ⟨rfl, rfl⟩

variable {c : Config} {forwarded : List Request} {t : RangeTable}

/-- **The table counts all lookups that it answers**, and apart those of buffers that it does not
know. -/
theorem counts_listed_cycle (hentries : t.entries = c.table.entries) (now : Nat) :
    ∃ listed unknown, (t.cycle now).stats.lookups = t.stats.lookups + (listed + unknown) ∧
      (t.cycle now).stats.unknownBufferIds = t.stats.unknownBufferIds + unknown ∧
      t.port.requests.items.countP (fun req => c.lists req.bufferId)
        = listed + (t.cycle now).port.requests.items.countP fun req => c.lists req.bufferId := by
  have hget : ∀ id, (t.get? id).isSome = c.lists id := by
    intro id
    rw [get?, hentries, Config.lists, Config.entry?]
  obtain ⟨hlookups, hunknown⟩ := counts_known_foldl_serve now (t.port.requests.drain now).1
    { t with port := { t.port with requests := (t.port.requests.drain now).2 } }
  have hsame : ({ t with port := { t.port with requests := (t.port.requests.drain now).2 } } :
      RangeTable).get? = t.get? := rfl
  have hlength := (t.port.requests.drain now).1.length_eq_countP_add_countP
    fun packet => c.lists packet.item.bufferId
  simp only [hsame, hget] at hunknown
  refine ⟨(t.port.requests.drain now).1.countP fun packet => c.lists packet.item.bufferId, _,
    hlookups.trans (congrArg (t.stats.lookups + ·) ?_), hunknown, ?_⟩
  · simpa using hlength
  · rw [requests_cycle, t.port.requests.items_drain now, List.countP_append, List.countP_map]
    rfl

/-- The lookups of listed buffers that were passed on to the table are on their way to it or were
answered, and the table has counted those. -/
def Served (c : Config) (forwarded : List Request) (t : RangeTable) : Prop :=
  ∃ served, t.stats.lookups = served + t.stats.unknownBufferIds ∧
    served + t.port.requests.items.countP (fun req => c.lists req.bufferId)
      = forwarded.countP fun req => c.lists req.bufferId

theorem Served.cycle (h : t.Served c forwarded) (hentries : t.entries = c.table.entries)
    (now : Nat) : (t.cycle now).Served c forwarded := by
  obtain ⟨served, hlookups, hserved⟩ := h
  obtain ⟨listed, unknown, hlookups', hunknown, hlisted⟩ := counts_listed_cycle hentries now
  refine ⟨served + listed, ?_, ?_⟩
  · omega
  · omega

/-- More lookups are passed on to the table. -/
theorem Served.forwards (h : t.Served c forwarded) (now : Nat) (cache : RangeCache) :
    ({ t with port := (cache.cycle now t.port).2 } : RangeTable).Served c
      (forwarded ++ cache.forwards now t.port) := by
  obtain ⟨served, hlookups, hserved⟩ := h
  obtain ⟨passed, hpassed, -⟩ := RangeCache.forwards_cycle now t.port cache
  refine ⟨served, hlookups, ?_⟩
  rw [RangeCache.forwards, hpassed, Port.added_sendAll, Port.items_sendAll, List.countP_append,
    List.countP_append]
  omega

end RangeTable

/-! ## Machines -/

/-- All caches of a machine that have room for the table are settled, given the states that cycles
have begun in, and the table has counted what was passed on to it. -/
structure Machine.Settled (c : Config) (begun : List Machine) (m : Machine) : Prop where
  caches : ∀ level cache, m.cache? level = some cache →
    c.table.entries.length ≤ (c.cacheAt level).capacity.toNat →
      cache.Settled c (begun.flatMap (·.forwards level))
  table : m.table.Served c (begun.flatMap (·.forwards .l2))

namespace Machine

variable {c : Config} {resolver : Resolver} {begun : List Machine} {m : Machine}

theorem forwards_append (begun : List Machine) (m : Machine) (level : CacheLevel) :
    (begun ++ [m]).flatMap (·.forwards level)
      = begun.flatMap (·.forwards level) ++ m.forwards level := by
  simp

/-- **A cycle keeps all caches of a machine settled.** -/
theorem Settled.cycle (h : m.Settled c begun) (hm : m.Regular c resolver) (hc : c.Accepted)
    (hfit : c.TagsFit) : m.cycle.state.Settled c (begun ++ [m]) := by
  refine ⟨fun level cache' hcache' hroom => ?_, ?_⟩
  · obtain ⟨cache, lower, port, hcache, hlower, hanswers, hwf, rfl⟩ :=
      hm.cache_cycle hc hfit hcache'
    have hforwards : m.forwards level = cache.forwards m.clock lower := by
      simp only [forwards, hcache, hlower]
    rw [forwards_append, hforwards]
    exact ((h.caches level cache hcache hroom).cycle hc hwf hanswers m.clock).congr rfl rfl rfl rfl
  · rw [hm.table_cycle hc hfit, forwards_append]
    exact (h.table.cycle hm.shaped.entries m.clock).forwards m.clock m.l2

theorem Settled.same (h : m.Settled c begun) {m' : Machine} (hsame : m.SameServers m') :
    m'.Settled c begun := by
  refine ⟨fun level cache hcache hroom => ?_, ?_⟩
  · rw [hsame.caches] at hcache
    exact h.caches level cache hcache hroom
  · rw [hsame.table]
    exact h.table

theorem Settled.reset (h : m.Settled c begun) : m.reset.Settled c [] := by
  refine ⟨fun level cache' hcache' hroom => ?_, ⟨0, rfl, rfl⟩⟩
  rw [cache?_reset, Option.map_eq_some_iff] at hcache'
  obtain ⟨cache, hcache, rfl⟩ := hcache'
  exact RangeCache.settled_of_idle rfl rfl (h.caches level cache hcache hroom).room

theorem lasting_settled (hc : c.Accepted) (hfit : c.TagsFit) :
    Lasting c resolver (Settled c) where
  same hsame h := h.same hsame
  cycle hm h := h.cycle hm hc hfit
  reset h := h.reset

theorem settled_fresh (c : Config) (resolver : Resolver) : (fresh c resolver).Settled c [] := by
  refine ⟨fun level cache hcache hroom => ?_, ⟨0, rfl, rfl⟩⟩
  cases level with
  | l2 =>
    cases hcache
    exact RangeCache.settled_of_idle rfl rfl hroom
  | l1 i =>
    obtain ⟨core, hcore, rfl⟩ := Option.map_eq_some_iff.mp hcache
    obtain ⟨id, -, rfl⟩ := List.mem_map.mp (List.mem_of_getElem? hcore)
    exact RangeCache.settled_of_idle rfl rfl hroom

end Machine

/-! ## Machines in use -/

namespace Drive

variable {c : Config} {m : Machine}

/-- **A cache with room for the whole table has only cold misses**, whatever was asked of the
machine, and behind the shared cache the table is asked at most once for each of its entries. -/
theorem only_cold_misses (hnew : Machine.new c = .ok m) (hfit : c.TagsFit) (calls : List Call) :
    (∀ level cache, ((start m).after calls).machine.cache? level = some cache →
      c.table.entries.length ≤ (c.cacheAt level).capacity.toNat →
        cache.OnlyCold c (((watch m).after calls).forwarded level)) ∧
    (c.table.entries.length ≤ c.l2.capacity.toNat →
      let stats := ((start m).after calls).machine.table.stats
      stats.unknownBufferIds ≤ stats.lookups ∧
        stats.lookups - stats.unknownBufferIds ≤ c.table.entries.length) := by
  obtain ⟨hc, resolver, -, rfl⟩ := Machine.of_new hnew
  have hsettled : ((start (Machine.fresh c resolver)).after calls).machine.Settled c
      ((watch (Machine.fresh c resolver)).after calls).begun :=
    (Machine.lasting_settled hc hfit).after hc hfit calls (w := watch (Machine.fresh c resolver))
      (Machine.regular_fresh hc hfit resolver) (Machine.settled_fresh c resolver)
  obtain ⟨hcaches, served, hlookups, hserved⟩ := hsettled
  refine ⟨fun level cache hcache hroom => (hcaches level cache hcache hroom).onlyCold,
    fun hroom => ?_⟩
  have honce := Config.countP_lists_le (hcaches .l2 _ rfl hroom).once
  dsimp only
  omega

/-- Two cores ask for the same buffer, and one of them for a buffer that the table does not know,
twice.  The shared cache has room for the four entries of the table and no more. -/
theorem only_cold_misses_two_cores :
    let c : Config :=
      { cores := 2, resolver := { addresses := [⟨0x5000, 9⟩] }, l2 := { capacity := 4 } }
    let calls : List Call :=
      [.push (.load 1 0xFEFFFFC8 4), .push (.load 2 0x5000 4),
        .push { uuid := 3, coreId := 1, kind := .store, blocks := [[⟨0xFEFFFFC8, 4⟩]] }, .run 60,
        .takeVerdicts, .push (.load 4 0x5000 4), .run 120]
    ∃ m, Machine.new c = .ok m ∧ c.TagsFit ∧
      ((start m).after calls).machine.l2.OnlyCold c (((watch m).after calls).forwarded .l2) ∧
      ((start m).after calls).machine.table.stats.lookups
        - ((start m).after calls).machine.table.stats.unknownBufferIds ≤ 4 := by
  intro c calls
  obtain ⟨hcaches, htable⟩ := only_cold_misses (c := c) rfl (by decide) calls
  exact ⟨_, rfl, by decide, hcaches .l2 _ rfl (by decide), (htable (by decide)).2⟩

end Drive

end BoundsCheck
