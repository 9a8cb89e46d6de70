import BoundsCheck.Proofs.Watching

/-!
# Time spent waiting for the server below

A cache counts in every cycle how many lookups it has under way below.  Summed up, this is how long
all of them together have waited: each is counted in every cycle after the one in which it was passed
on, up to the one in which its response is taken in, or up to now if it has none.  The counting comes
first in a cycle, so in the cycle of its response a lookup is still counted, and in the cycle in which
it is passed on it is not counted yet.

* `RangeCache.fill?`, `RangeCache.waited` — the response to a lookup, and how long this has waited.
* `RangeCache.Waited` — the account of the time that a cache has counted.
* `RangeCache.Waited.cycle` — a cycle keeps it.
* `Drive.waits_are_counted` — it is right for every cache of a machine, whatever is asked.
-/

set_option autoImplicit false

namespace BoundsCheck

open Lookup

/-- Adding one to the summands that are picked adds their number to the sum. -/
theorem sum_map_add_toNat {α : Type} (f : α → Nat) (pick : α → Bool) (l : List α) :
    (l.map fun a => f a + (pick a).toNat).sum = (l.map f).sum + l.countP pick := by
  induction l with
  | nil => rfl
  | cons a l ih =>
    rw [List.map_cons, List.sum_cons, List.map_cons, List.sum_cons, List.countP_cons, ih]
    cases pick a <;> simp <;> omega

/-- When the misses of a buffer leave, the first questions for others stay. -/
theorem MissTable.WellFormed.heads_of_take? {t rest : MissTable} (h : t.WellFormed) {id : BufferId}
    {reqs : List Request} (htake : t.take? id = some (reqs, rest)) :
    rest.heads = t.heads.filter fun req => req.bufferId != id := by
  have hrest : rest = ⟨t.misses.filter (·.bufferId != id)⟩ := by
    rw [take?] at htake
    split at htake
    · cases htake
    · cases htake
      rfl
  rw [hrest, heads, heads, Multiset.filter_coe, List.filterMap_filter, List.filter_filterMap]
  refine congrArg _ (List.filterMap_congr fun miss hmem => ?_)
  rcases hwait : miss.waiting with _ | ⟨first, others⟩
  · simp
  · have hfirst : first.bufferId = miss.bufferId := h.same_id miss hmem first (by rw [hwait]; simp)
    simp only [List.head?_cons, Option.filter_some, hfirst, decide_eq_true_eq]

namespace RangeCache

/-! ## Lookups and their responses -/

/-- The response to a lookup is the first one for its buffer that is taken in after the lookup was
passed on.  Both are given with the cycle in which this was. -/
def fill? (fills : List (Response × Nat)) (lookup : Request × Nat) : Option (Response × Nat) :=
  fills.find? fun fill => lookup.2 < fill.2 && lookup.1.bufferId == fill.1.bufferId

/-- How long a lookup has waited before this cycle for its response, or did until it came. -/
def waited (clock : Nat) (fills : List (Response × Nat)) (lookup : Request × Nat) : Nat :=
  match fill? fills lookup with
  | some fill => fill.2 - lookup.2
  | none => clock - 1 - lookup.2

/-- The account of the time that a cache has counted before this cycle, given the lookups that it has
passed on and the responses that it has taken in. -/
structure Waited (clock : Nat) (lookups : List (Request × Nat)) (fills : List (Response × Nat))
    (cache : RangeCache) : Prop where
  /-- It is the time that the lookups have waited, taken together. -/
  memLatency : cache.stats.memLatency = (lookups.map (waited clock fills)).sum
  /-- A lookup that was merged was not passed on, and so adds nothing. -/
  readMisses : cache.stats.readMisses = lookups.length
  /-- All this was before this cycle. -/
  past : (∀ lookup ∈ lookups, lookup.2 < clock) ∧ ∀ fill ∈ fills, fill.2 < clock
  /-- The response to a lookup repeats it. -/
  filled : ∀ lookup ∈ lookups, ∀ fill, fill? fills lookup = some fill →
    fill.1.question = lookup.1
  /-- The lookups without a response are the first ones at the pending misses. -/
  outstanding : (↑((lookups.filter fun lookup => (fill? fills lookup).isNone).map (·.1)) :
    Multiset Request) = cache.misses.heads

variable {now : Nat} {lookups : List (Request × Nat)} {fills : List (Response × Nat)}
  {lookup : Request × Nat} {cache : RangeCache} {lower : Lookup.Link}

/-! ## What a cycle counts -/

theorem memLatency_takeRequest (now : Nat) (lower : Lookup.Link) (c : RangeCache) :
    (c.takeRequest now lower).1.stats.memLatency = c.stats.memLatency := by
  rcases hpop : c.port.requests.pop? now with _ | ⟨packet, rest⟩
  · rw [takeRequest, hpop]
  · rw [takeRequest_of_pop? hpop, access]
    split
    · rfl
    · split <;> rfl

/-- A cycle counts each pending miss, before anything else happens. -/
theorem memLatency_cycle (now : Nat) (lower : Lookup.Link) (c : RangeCache) :
    (c.cycle now lower).1.stats.memLatency = c.stats.memLatency + c.misses.size := by
  obtain ⟨evictions, hstats⟩ := stats_takeResponse now lower c.countWaiting
  rw [cycle_eq, memLatency_takeRequest, hstats]
  rfl

/-! ## What a cycle waits for -/

/-- A response takes the lookups for its buffer from those that are waited for. -/
theorem heads_takeResponse_eq (hwf : cache.misses.WellFormed) (now : Nat) (lower : Lookup.Link) :
    (cache.takeResponse now lower).1.misses.heads = cache.misses.heads.filter fun req =>
      (received now lower).all fun rsp => req.bufferId != rsp.bufferId := by
  rcases takeResponse_cases now lower cache with ⟨hpop, heq⟩ | ⟨packet, rest, hpop, heq⟩
  · rw [heq, received, hpop]
    exact (Multiset.filter_eq_self.mpr fun _ _ => rfl).symm
  · have hreceived : received now lower = [packet.item] := by rw [received, hpop]; rfl
    simp only [heq, hreceived, List.all_cons, List.all_nil, Bool.and_true]
    rcases fill_cases now packet.item cache with ⟨hid, hfill⟩ | ⟨reqs, misses, htake, hfill⟩
    · -- nobody waits for its buffer
      rw [hfill, misses_keep, Multiset.filter_eq_self.mpr]
      intro req hreq
      have hmem := Multiset.mem_map_of_mem (·.bufferId) hreq
      rw [hwf.map_heads, Multiset.mem_coe] at hmem
      exact bne_iff_ne.mpr fun hsame => hid (hsame ▸ hmem)
    · rw [hfill]
      exact hwf.heads_of_take? htake

/-- A lookup that is passed on is waited for, and no other is added. -/
theorem heads_takeRequest_eq (hwf : cache.misses.WellFormed) (now : Nat) (lower : Lookup.Link) :
    (cache.takeRequest now lower).1.misses.heads = cache.misses.heads
      + ↑(lower.requests.added (cache.takeRequest now lower).2.requests) := by
  rcases takeRequest_cases hwf now lower with ⟨-, heq⟩ | ⟨packet, rest, -, hcases⟩
  · rw [heq, Port.added_self]
    exact (add_zero _).symm
  · rcases hcases with ⟨entry, -, heq⟩ | ⟨-, hmiss, heq⟩ | ⟨-, hmiss, heq⟩
    · rw [heq, Port.added_self]
      exact (add_zero _).symm
    · rw [heq, Port.added_self]
      exact (hwf.heads_add_of_contains (MissTable.contains_iff.mpr hmiss)).trans (add_zero _).symm
    · rw [← MissTable.contains_iff, Bool.not_eq_true] at hmiss
      rw [heq, Link.request, Port.added_send]
      exact MissTable.heads_add_of_not_contains hmiss

theorem heads_cycle_eq (hwf : cache.misses.WellFormed) (now : Nat) (lower : Lookup.Link) :
    (cache.cycle now lower).1.misses.heads
      = cache.misses.heads.filter (fun req =>
          (received now lower).all fun rsp => req.bufferId != rsp.bufferId)
        + ↑(cache.forwards now lower) := by
  have hresponse := @heads_takeResponse_eq cache.countWaiting hwf now lower
  have hrequest := heads_takeRequest_eq
    (wellFormed_takeResponse (c := cache.countWaiting) hwf now lower) now
    (cache.countWaiting.takeResponse now lower).2
  rwa [hresponse, (requests_takeResponse now lower cache.countWaiting).2] at hrequest

/-! ## The account of a cycle -/

theorem fill?_append (fills more : List (Response × Nat)) (lookup : Request × Nat) :
    fill? (fills ++ more) lookup = (fill? fills lookup).or (fill? more lookup) :=
  List.find?_append

/-- What is taken in after a lookup was passed on is its response if it is for the same buffer. -/
theorem fill?_map_of_lt (h : lookup.2 < now) (rsps : List Response) :
    fill? (rsps.map (·, now)) lookup
      = (rsps.find? fun rsp => lookup.1.bufferId == rsp.bufferId).map (·, now) := by
  simp only [fill?, List.find?_map, Function.comp_def, h, decide_true, Bool.true_and]

/-- A lookup does not meet its response in the cycle in which it is passed on. -/
theorem fill?_eq_none (hpast : ∀ fill ∈ fills, fill.2 < now) (rsps : List Response)
    (req : Request) : fill? (fills ++ rsps.map (·, now)) (req, now) = none := by
  refine List.find?_eq_none.mpr fun fill hfill => ?_
  have hle : fill.2 ≤ now := by
    rcases List.mem_append.mp hfill with hfill | hfill
    · exact (hpast fill hfill).le
    · obtain ⟨rsp, -, rfl⟩ := List.mem_map.mp hfill
      exact Nat.le_refl now
  simp [Nat.not_lt.mpr hle]

/-- A lookup without a response has waited for one more cycle, whether its response has come in this
cycle or not. -/
theorem waited_succ (h : lookup.2 < now) (fills : List (Response × Nat)) (rsps : List Response) :
    waited (now + 1) (fills ++ rsps.map (·, now)) lookup
      = waited now fills lookup + (fill? fills lookup).isNone.toNat := by
  rw [waited, waited, fill?_append, fill?_map_of_lt h]
  rcases fill? fills lookup with _ | fill
  · rcases rsps.find? _ with _ | rsp
    · show now + 1 - 1 - lookup.2 = now - 1 - lookup.2 + 1
      omega
    · show now - lookup.2 = now - 1 - lookup.2 + 1
      omega
  · rfl

/-- Lookups that are passed on in this cycle have not waited yet. -/
theorem sum_waited_new (hpast : ∀ fill ∈ fills, fill.2 < now) (rsps : List Response)
    (reqs : List Request) :
    ((reqs.map (·, now)).map (waited (now + 1) (fills ++ rsps.map (·, now)))).sum = 0 := by
  induction reqs with
  | nil => rfl
  | cons req reqs ih =>
    have hnone : waited (now + 1) (fills ++ rsps.map (·, now)) (req, now) = 0 := by
      rw [waited, fill?_eq_none hpast]
      show now + 1 - 1 - now = 0
      omega
    rw [List.map_cons, List.map_cons, List.sum_cons, hnone, ih]

/-- Those without a response still have none, unless it has come in this cycle. -/
theorem filter_isNone_fill? (hpast : ∀ lookup ∈ lookups, lookup.2 < now) (rsps : List Response) :
    (lookups.filter fun lookup => (fill? (fills ++ rsps.map (·, now)) lookup).isNone).map (·.1)
      = ((lookups.filter fun lookup => (fill? fills lookup).isNone).map (·.1)).filter fun req =>
          rsps.all fun rsp => req.bufferId != rsp.bufferId := by
  rw [List.filter_map, List.filter_filter]
  refine congrArg _ (List.filter_congr fun lookup hmem => ?_)
  rw [fill?_append, fill?_map_of_lt (hpast lookup hmem), Option.isNone_or, Option.isNone_map,
    Bool.and_comm, Bool.eq_iff_iff]
  simp

/-- Those that are passed on in this cycle all have none. -/
theorem filter_isNone_new (hpast : ∀ fill ∈ fills, fill.2 < now) (rsps : List Response)
    (reqs : List Request) :
    ((reqs.map (·, now)).filter fun lookup =>
      (fill? (fills ++ rsps.map (·, now)) lookup).isNone).map (·.1) = reqs := by
  have hall : (reqs.map (·, now)).filter (fun lookup =>
      (fill? (fills ++ rsps.map (·, now)) lookup).isNone) = reqs.map (·, now) := by
    refine List.filter_eq_self.mpr fun lookup hmem => ?_
    obtain ⟨req, -, rfl⟩ := List.mem_map.mp hmem
    rw [fill?_eq_none hpast]
    rfl
  rw [hall, List.map_map]
  exact List.map_id _

/-- The first lookups of the pending misses are for different buffers. -/
theorem eq_of_mem_heads (hwf : cache.misses.WellFormed) {req other : Request}
    (hreq : req ∈ cache.misses.heads) (hother : other ∈ cache.misses.heads)
    (hid : req.bufferId = other.bufferId) : req = other := by
  have hnodup : (cache.misses.heads.map (·.bufferId)).Nodup := by
    rw [hwf.map_heads]
    exact Multiset.coe_nodup.mpr hwf.nodup
  exact Multiset.inj_on_of_nodup_map hnodup req hreq other hother hid

/-- There are as many lookups without a response as pending misses. -/
theorem Waited.countP_isNone (h : cache.Waited now lookups fills) (hwf : cache.misses.WellFormed) :
    (lookups.countP fun lookup => (fill? fills lookup).isNone) = cache.misses.size := by
  rw [← hwf.card_heads, ← h.outstanding, Multiset.coe_card, List.length_map,
    List.countP_eq_length_filter]

/-- The response to a lookup repeats it, whether it has come in this cycle or before. -/
theorem Waited.filled_cycle (h : cache.Waited now lookups fills) (hwf : cache.misses.WellFormed)
    (hanswers : ∀ rsp ∈ received now lower, rsp.question ∈ cache.misses.heads)
    (hmem : lookup ∈ lookups) {fill : Response × Nat}
    (hfill : fill? (fills ++ (received now lower).map (·, now)) lookup = some fill) :
    fill.1.question = lookup.1 := by
  rw [fill?_append, fill?_map_of_lt (h.past.1 lookup hmem)] at hfill
  rcases hold : fill? fills lookup with _ | first
  · -- the lookup was waited for, and so was the one that the response answers
    rw [hold, Option.none_or, Option.map_eq_some_iff] at hfill
    obtain ⟨rsp, hfind, rfl⟩ := hfill
    have hid : lookup.1.bufferId = rsp.bufferId := by
      have hfound := List.find?_some hfind
      exact beq_iff_eq.mp hfound
    have hwaited : lookup.1 ∈ cache.misses.heads := by
      rw [← h.outstanding, Multiset.mem_coe]
      exact List.mem_map_of_mem (List.mem_filter.mpr ⟨hmem, by rw [hold]; rfl⟩)
    have hanswered := hanswers rsp (List.mem_of_find?_eq_some hfind)
    exact (eq_of_mem_heads hwf hwaited hanswered hid).symm
  · rw [hold, Option.some_or] at hfill
    cases hfill
    exact h.filled lookup hmem fill hold

/-- **A cycle keeps the account**, if the response that is taken in is one to the first lookup of a
pending miss. -/
theorem Waited.cycle (h : cache.Waited now lookups fills) (hwf : cache.misses.WellFormed)
    (hanswers : ∀ rsp ∈ received now lower, rsp.question ∈ cache.misses.heads) :
    (cache.cycle now lower).1.Waited (now + 1)
      (lookups ++ (cache.forwards now lower).map (·, now))
      (fills ++ (received now lower).map (·, now)) := by
  obtain ⟨hlookups, hfills⟩ := h.past
  refine ⟨?_, ?_, ⟨?_, ?_⟩, ?_, ?_⟩
  · -- each lookup that was waited for has waited for one more cycle, and there is one for each miss
    have hold : lookups.map (waited (now + 1) (fills ++ (received now lower).map (·, now)))
        = lookups.map fun lookup => waited now fills lookup + (fill? fills lookup).isNone.toNat :=
      List.map_congr_left fun lookup hmem => waited_succ (hlookups lookup hmem) fills _
    rw [memLatency_cycle, h.memLatency, List.map_append, List.sum_append, hold,
      sum_waited_new hfills, sum_map_add_toNat, h.countP_isNone hwf, Nat.add_zero]
  · obtain ⟨passed, hrequests, hcount⟩ := forwards_cycle now lower cache
    rw [hcount, h.readMisses, forwards, hrequests, Port.added_sendAll, List.length_append,
      List.length_map]
  · intro lookup hmem
    rcases List.mem_append.mp hmem with hmem | hmem
    · exact Nat.lt_succ_of_lt (hlookups lookup hmem)
    · obtain ⟨req, -, rfl⟩ := List.mem_map.mp hmem
      exact Nat.lt_succ_self now
  · intro fill hmem
    rcases List.mem_append.mp hmem with hmem | hmem
    · exact Nat.lt_succ_of_lt (hfills fill hmem)
    · obtain ⟨rsp, -, rfl⟩ := List.mem_map.mp hmem
      exact Nat.lt_succ_self now
  · intro lookup hmem fill hfill
    rcases List.mem_append.mp hmem with hmem | hmem
    · exact h.filled_cycle hwf hanswers hmem hfill
    · obtain ⟨req, -, rfl⟩ := List.mem_map.mp hmem
      rw [fill?_eq_none hfills] at hfill
      cases hfill
  · rw [List.filter_append, List.map_append, filter_isNone_fill? hlookups,
      filter_isNone_new hfills, heads_cycle_eq hwf, ← h.outstanding, Multiset.filter_coe, ← Multiset.coe_add]
    simp only [Bool.decide_eq_true]

/-- The account does not depend on the port of the cache. -/
theorem Waited.withPort {clock : Nat} (h : cache.Waited clock lookups fills) (port : Lookup.Link) :
    ({ cache with port } : RangeCache).Waited clock lookups fills :=
  ⟨h.memLatency, h.readMisses, h.past, h.filled, h.outstanding⟩

/-- A cache that has done nothing has counted nothing. -/
theorem waited_of_idle (hmisses : cache.misses = {}) (hstats : cache.stats = {}) (clock : Nat) :
    cache.Waited clock [] [] := by
  have hnone : ∀ {α : Type} {P : α → Prop}, ∀ a ∈ ([] : List α), P a :=
    fun _ hmem => absurd hmem List.not_mem_nil
  refine ⟨?_, ?_, ⟨hnone, hnone⟩, hnone, ?_⟩
  · rw [hstats]
    rfl
  · rw [hstats]
    rfl
  · rw [hmisses]
    rfl

end RangeCache

/-! ## Machines -/

namespace Machine

/-- The lookups that a cache passes on in the next cycle, with the number of this cycle. -/
def forwardsNow (level : CacheLevel) (m : Machine) : List (Request × Nat) :=
  (m.forwards level).map (·, m.clock)

/-- The response that a cache takes in in the next cycle, if any, with the number of this cycle. -/
def receivesNow (level : CacheLevel) (m : Machine) : List (Response × Nat) :=
  match m.linkBelow? level with
  | some lower => (RangeCache.received m.clock lower).map (·, m.clock)
  | none => []

end Machine

namespace Drive.Watched

/-- The lookups that a cache has passed on since the machine was last reset, and when. -/
def lookups (level : CacheLevel) (w : Watched) : List (Request × Nat) :=
  w.begun.flatMap (·.forwardsNow level)

/-- The responses that a cache has taken in since the machine was last reset, and when. -/
def fills (level : CacheLevel) (w : Watched) : List (Response × Nat) :=
  w.begun.flatMap (·.receivesNow level)

end Drive.Watched

/-- All caches of a machine account for the time that they have counted, given the states that cycles
have begun in. -/
def Machine.Waited (begun : List Machine) (m : Machine) : Prop :=
  ∀ level cache, m.cache? level = some cache →
    cache.Waited m.clock (begun.flatMap (·.forwardsNow level)) (begun.flatMap (·.receivesNow level))

namespace Machine

variable {c : Config} {resolver : Resolver} {begun : List Machine} {m : Machine}

/-- The response that a cache takes in is one to the first lookup of a pending miss. -/
theorem Regular.question_mem_heads (h : m.Regular c resolver) {level : CacheLevel}
    {cache : RangeCache} {lower : Lookup.Link} (hcache : m.cache? level = some cache)
    (hlower : m.linkBelow? level = some lower) :
    ∀ rsp ∈ RangeCache.received m.clock lower, rsp.question ∈ cache.misses.heads := by
  intro rsp hrsp
  have hunderway : rsp.question ∈ underway lower := by
    rw [RangeCache.received, Option.mem_toList, Option.map_eq_some_iff] at hrsp
    obtain ⟨⟨packet, rest⟩, hpop, rfl⟩ := hrsp
    exact mem_underway_of_pop?_responses hpop
  cases level with
  | l2 =>
    cases hcache
    cases hlower
    rw [h.balanced.cycleTable.below] at hunderway
    exact hunderway
  | l1 i =>
    obtain ⟨core, hcore, rfl⟩ := Option.map_eq_some_iff.mp hcache
    have hlink : m.switch.inputs[i]? = some lower := hlower
    rw [← (h.balanced.cores i core hcore).below, below, hlink]
    exact Multiset.mem_add.mpr (.inl hunderway)

/-- **A cycle keeps the accounts of all caches.** -/
theorem Waited.cycle (h : m.Waited begun) (hm : m.Regular c resolver) (hc : c.Accepted)
    (hfit : c.TagsFit) : m.cycle.state.Waited (begun ++ [m]) := by
  intro level cache' hcache'
  obtain ⟨cache, lower, port, hcache, hlower, -, hwf, rfl⟩ := hm.cache_cycle hc hfit hcache'
  have hforwards : m.forwardsNow level = (cache.forwards m.clock lower).map (·, m.clock) := by
    simp only [forwardsNow, forwards, hcache, hlower]
  have hreceives : m.receivesNow level
      = (RangeCache.received m.clock lower).map (·, m.clock) := by
    simp only [receivesNow, hlower]
  rw [hm.clock_cycle hc hfit, List.flatMap_append, List.flatMap_append, List.flatMap_singleton,
    List.flatMap_singleton, hforwards, hreceives]
  exact ((h level cache hcache).cycle hwf (hm.question_mem_heads hcache hlower)).withPort port

theorem Waited.same (h : m.Waited begun) {m' : Machine} (hsame : m.SameServers m') :
    m'.Waited begun := by
  intro level cache hcache
  rw [hsame.caches] at hcache
  rw [hsame.clock]
  exact h level cache hcache

theorem waited_reset (m : Machine) : m.reset.Waited [] := by
  intro level cache' hcache'
  rw [cache?_reset, Option.map_eq_some_iff] at hcache'
  obtain ⟨cache, -, rfl⟩ := hcache'
  exact RangeCache.waited_of_idle rfl rfl 0

theorem lasting_waited (hc : c.Accepted) (hfit : c.TagsFit) : Lasting c resolver Waited where
  same hsame h := h.same hsame
  cycle hm h := h.cycle hm hc hfit
  reset _ := waited_reset _

end Machine

/-! ## Machines in use -/

namespace Drive

variable {c : Config} {m : Machine}

/-- **The time that a cache counts is the time that its lookups have waited below**, whatever was
asked of the machine: each lookup that was passed on has waited from then until its response came, or
until now, and lookups that were merged are not counted. -/
theorem waits_are_counted (hnew : Machine.new c = .ok m) (hfit : c.TagsFit) (calls : List Call)
    {level : CacheLevel} {cache : RangeCache}
    (hcache : ((start m).after calls).machine.cache? level = some cache) :
    cache.Waited ((start m).after calls).machine.clock (((watch m).after calls).lookups level)
      (((watch m).after calls).fills level) := by
  obtain ⟨hc, resolver, -, rfl⟩ := Machine.of_new hnew
  have hfresh : (Machine.fresh c resolver).Waited [] := by
    rw [← Machine.reset_fresh]
    exact Machine.waited_reset _
  have hwaited : ((start (Machine.fresh c resolver)).after calls).machine.Waited
      ((watch (Machine.fresh c resolver)).after calls).begun :=
    (Machine.lasting_waited hc hfit).after hc hfit calls (w := watch (Machine.fresh c resolver))
      (Machine.regular_fresh hc hfit resolver) hfresh
  exact hwaited level cache hcache

/-- Two cores ask for the same buffer, and the first of them for another one as well.  In the cycle 14
the shared cache has taken in one response and waits for another: it has counted eight cycles for the
first lookup, seven for the second, and none for the one that was merged. -/
theorem waits_are_counted_two_cores :
    let c : Config := { cores := 2 }
    let calls : List Call :=
      [.push (.load 1 0xFEFFFFC8 4), .push (.load 2 0xFEFFFFBC 4),
        .push { uuid := 3, coreId := 1, kind := .store, blocks := [[⟨0xFEFFFFC8, 4⟩]] }, .run 14]
    ∃ m cache, Machine.new c = .ok m ∧ c.TagsFit ∧
      ((start m).after calls).machine.cache? .l2 = some cache ∧
      (((watch m).after calls).lookups .l2).map (·.2) = [4, 6] ∧
      (((watch m).after calls).fills .l2).map (·.2) = [12] ∧
      ((start m).after calls).machine.clock = 14 ∧ cache.stats.memLatency = 15 ∧
      cache.Waited ((start m).after calls).machine.clock (((watch m).after calls).lookups .l2)
        (((watch m).after calls).fills .l2) := by
  intro c calls
  exact ⟨_, _, rfl, by decide, rfl, by decide +kernel, by decide +kernel, by decide +kernel,
    by decide +kernel, waits_are_counted (c := c) rfl (by decide) calls rfl⟩

end Drive

end BoundsCheck
