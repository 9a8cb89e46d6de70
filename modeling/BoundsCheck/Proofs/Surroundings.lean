import BoundsCheck.Proofs.Build
import BoundsCheck.Proofs.Counting

/-!
# A cache in any surroundings

Nothing has to be known of the server below a cache for the cache itself to stay in order.  A
response may come that nobody has asked for, or come twice, or bring the entry of another buffer
than the one in question: the entry is kept under its own buffer or not at all, and whoever waits for
the buffer in question is answered with whatever came.  Only those who find the entry held are sure
to get the right one.

* `RangeCache.Exposed` — a cache, with what it has taken in and sent since it was last reset.
* `RangeCache.Exposed.step` — what can happen to it; the link below may hold anything in every cycle.
* `RangeCache.Exposed.InOrder` — the state of the cache is in order, and so are its accounts.
* `RangeCache.Exposed.stays_in_order` — they are, whatever has happened.
-/

set_option autoImplicit false

namespace BoundsCheck

open Lookup

/-- As many questions wait as the table says. -/
theorem MissTable.card_waiting (t : MissTable) : t.waiting.card = t.waitingCount := rfl

namespace RangeCache

/-! ## What happens -/

/-- What happens to a cache. -/
inductive Exposed.Event
  /-- A lookup is sent to the cache. -/
  | ask (req : Request) (delay now : Nat)
  /-- An answer is taken from the cache, if one is visible. -/
  | collect (now : Nat)
  /-- The cache works above a link, and whatever has been put on that link. -/
  | cycle (now : Nat) (lower : Lookup.Link)
  /-- The cache is reset. -/
  | reset
deriving DecidableEq, Repr

/-- A cache, with what it has taken in and sent since it was last reset. -/
structure Exposed where
  cache : RangeCache
  /-- The lookups it has taken in. -/
  taken : List Request := []
  /-- The answers it has sent to those that waited for a response. -/
  filled : List Response := []
  /-- The answers it has sent to those whose entry it held. -/
  hits : List Response := []

namespace Exposed

/-- The cache takes in a response, if one is visible on the link below. -/
def takeResponse (now : Nat) (lower : Lookup.Link) (e : Exposed) : Exposed :=
  let worked := (e.cache.countWaiting.takeResponse now lower).1
  { e with
    cache := worked
    filled := e.filled ++ e.cache.port.responses.added worked.port.responses }

/-- The cache takes in a lookup, if one is visible on its port. -/
def takeRequest (now : Nat) (lower : Lookup.Link) (e : Exposed) : Exposed :=
  let worked := (e.cache.takeRequest now lower).1
  { e with
    cache := worked
    taken := e.taken ++ e.cache.port.requests.removed worked.port.requests
    hits := e.hits ++ e.cache.port.responses.added worked.port.responses }

/-- The cache after something has happened to it. -/
def step (e : Exposed) : Event → Exposed
  | .ask req delay now => { e with cache.port := e.cache.port.request req delay now }
  | .collect now =>
    match e.cache.port.responses.pop? now with
    | none => e
    | some (_, rest) => { e with cache.port.responses := rest }
  | .cycle now lower =>
    (e.takeResponse now lower).takeRequest now (e.cache.countWaiting.takeResponse now lower).2
  | .reset => { cache := e.cache.reset }

/-- The cache after several things have happened to it. -/
def after (events : List Event) (e : Exposed) : Exposed := events.foldl step e

/-- A cycle is one of the cache, whatever is noted down beside it. -/
theorem cache_step_cycle (now : Nat) (lower : Lookup.Link) (e : Exposed) :
    (e.step (.cycle now lower)).cache = (e.cache.cycle now lower).1 := rfl

/-- The state of a cache is in order, and it has accounted for all lookups. -/
structure InOrder (config : CacheConfig) (e : Exposed) : Prop where
  /-- No buffer is held twice. -/
  nodup : e.cache.lines.ids.Nodup
  /-- Only entries of buffers are held, each under its own buffer. -/
  held : ∀ id ∈ e.cache.lines.ids, id ≠ invalidBuffer ∧
    ∃ entry, e.cache.lines.get? id = some entry ∧ entry.bufferId = id
  /-- No more entries are held than there is room for. -/
  size_le : e.cache.lines.size ≤ config.capacity.toNat
  /-- Each buffer has at most one pending miss, at which at least one lookup waits, and only lookups
  of that buffer do. -/
  misses : e.cache.misses.WellFormed
  /-- No buffer is both held and awaited. -/
  apart : ∀ id, e.cache.lines.contains id = true → e.cache.misses.contains id = false
  /-- The lookups taken in are those answered at once, those answered by a response and those that
  wait. -/
  accounted : (↑e.taken : Multiset Request) = ↑(e.hits.map Response.question)
    + ↑(e.filled.map Response.question) + e.cache.misses.waiting
  /-- What is answered at once is answered with the entry of the buffer in question. -/
  hits : ∀ rsp ∈ e.hits, ∃ req ∈ e.taken, ∃ entry,
    rsp = req.answer entry ∧ entry.bufferId = req.bufferId
  /-- The cache has counted all lookups and all hits. -/
  counted : e.cache.stats.reads = e.taken.length ∧ e.cache.stats.hits = e.hits.length
  /-- Each lookup taken in was a hit, waits or was answered by a response. -/
  count : e.taken.length
    = e.cache.stats.hits + e.cache.misses.waitingCount + e.filled.length

/-! ## What is kept -/

/-- What is kept of a cache whatever happens. -/
structure Regular (config : CacheConfig) (e : Exposed) : Prop where
  pos : 0 < config.capacity.toNat
  capacity : e.cache.lines.capacity = config.capacity.toNat
  size_le : e.cache.lines.size ≤ e.cache.lines.capacity
  tidy : e.cache.Tidy
  buffers : ∀ id ∈ e.cache.lines.ids, id ≠ invalidBuffer
  misses : e.cache.misses.WellFormed
  accounted : (↑e.taken : Multiset Request) = ↑(e.hits.map Response.question)
    + ↑(e.filled.map Response.question) + e.cache.misses.waiting
  hits : ∀ rsp ∈ e.hits, ∃ req ∈ e.taken, ∃ entry,
    rsp = req.answer entry ∧ entry.bufferId = req.bufferId
  reads : e.cache.stats.reads = e.taken.length
  counted : e.cache.stats.hits = e.hits.length

variable {config : CacheConfig} {e : Exposed} {now : Nat} {lower : Lookup.Link}

/-- Only the entries that are held, the misses and two of the counters matter. -/
theorem Regular.congr (h : e.Regular config) {c : RangeCache} (hlines : c.lines = e.cache.lines)
    (hmisses : c.misses = e.cache.misses) (hreads : c.stats.reads = e.cache.stats.reads)
    (hhits : c.stats.hits = e.cache.stats.hits) : ({ e with cache := c } : Exposed).Regular config := by
  refine ⟨h.pos, ?_, ?_, h.tidy.congr hlines hmisses, ?_, ?_, ?_, h.hits, hreads.trans h.reads,
    hhits.trans h.counted⟩
  · rw [hlines]
    exact h.capacity
  · rw [hlines]
    exact h.size_le
  · rw [hlines]
    exact h.buffers
  · rw [hmisses]
    exact h.misses
  · rw [hmisses]
    exact h.accounted

/-- An entry is kept under its own buffer, and only if there is such a buffer. -/
theorem Regular.keep (h : e.Regular config) (rsp : Response) :
    (e.cache.keep rsp).lines.capacity = config.capacity.toNat ∧
      (e.cache.keep rsp).lines.size ≤ (e.cache.keep rsp).lines.capacity ∧
      ∀ id ∈ (e.cache.keep rsp).lines.ids, id ≠ invalidBuffer := by
  by_cases hreal : isRealEntry rsp = true
  · have hlines : (e.cache.keep rsp).lines = e.cache.lines.add rsp.entry := by
      rw [RangeCache.keep, if_pos hreal]
    rw [hlines, LineSet.capacity_add]
    refine ⟨h.capacity, LineSet.size_add_le (by rw [h.capacity]; exact h.pos) h.size_le _, ?_⟩
    intro id hid
    rcases LineSet.mem_ids_add hid with hid | rfl
    · exact h.buffers id hid
    · simp only [isRealEntry, RangeEntry.isSentinel, Bool.and_eq_true, Bool.not_eq_true',
        beq_eq_false_iff_ne] at hreal
      exact hreal.1
  · have hsame : e.cache.keep rsp = e.cache := by rw [RangeCache.keep, if_neg hreal]
    rw [hsame]
    exact ⟨h.capacity, h.size_le, h.buffers⟩

/-- An entry that is kept counts neither as a read nor as a hit. -/
theorem stats_keep (rsp : Response) (c : RangeCache) :
    (c.keep rsp).stats.reads = c.stats.reads ∧ (c.keep rsp).stats.hits = c.stats.hits := by
  rw [keep]
  split
  · exact ⟨rfl, rfl⟩
  · exact ⟨rfl, rfl⟩

/-- Whatever response comes, those who wait for the buffer in question are answered. -/
theorem Regular.takeResponse (h : e.Regular config) (now : Nat) (lower : Lookup.Link) :
    (e.takeResponse now lower).Regular config := by
  have hcount : ({ e with cache := e.cache.countWaiting } : Exposed).Regular config :=
    h.congr rfl rfl rfl rfl
  have htidy : (e.takeResponse now lower).cache.Tidy := hcount.tidy.takeResponse now lower
  have hwf : (e.takeResponse now lower).cache.misses.WellFormed :=
    wellFormed_takeResponse hcount.misses now lower
  rcases takeResponse_cases now lower e.cache.countWaiting with ⟨-, heq⟩ | ⟨packet, rest, -, heq⟩
  · -- nothing but a counter has changed
    have hstep : e.takeResponse now lower = { e with cache := e.cache.countWaiting } := by
      simp only [Exposed.takeResponse, heq]
      simp [countWaiting]
    rw [hstep]
    exact hcount
  · obtain ⟨hcapacity, hsize, hbuffers⟩ := hcount.keep packet.item
    obtain ⟨hreads, hhits⟩ := stats_keep packet.item e.cache.countWaiting
    rcases fill_cases now packet.item e.cache.countWaiting with
      ⟨-, hfill⟩ | ⟨reqs, misses, htake, hfill⟩
    · -- nobody waits for the buffer in question
      have hstep : e.takeResponse now lower
          = { e with cache := e.cache.countWaiting.keep packet.item } := by
        simp only [Exposed.takeResponse, heq, hfill]
        simp [countWaiting]
      rw [hstep] at htidy hwf ⊢
      refine ⟨h.pos, hcapacity, hsize, htidy, hbuffers, hwf, ?_, h.hits, hreads.trans h.reads,
        hhits.trans h.counted⟩
      show _ = _ + (e.cache.countWaiting.keep packet.item).misses.waiting
      rw [misses_keep]
      exact h.accounted
    · have hstep : (e.takeResponse now lower).filled
          = e.filled ++ reqs.map (·.answer packet.item.entry) := by
        simp only [Exposed.takeResponse, heq, hfill]
        simp [countWaiting]
      have hcache : (e.takeResponse now lower).cache
          = { e.cache.countWaiting.keep packet.item with
            misses := misses
            port.responses := e.cache.port.responses.sendAll
              (reqs.map (·.answer packet.item.entry)) e.cache.config.hitLatency.toNat now } := by
        simp only [Exposed.takeResponse, heq, hfill]
        rfl
      have hwaiting : e.cache.misses.waiting = ↑reqs + misses.waiting :=
        (h.misses.of_take? htake).1
      refine ⟨h.pos, ?_, ?_, htidy, ?_, hwf, ?_, h.hits, ?_, ?_⟩
      · rw [hcache]
        exact hcapacity
      · rw [hcache]
        exact hsize
      · rw [hcache]
        exact hbuffers
      · have hquestions : (reqs.map (·.answer packet.item.entry)).map Response.question = reqs := by
          simp [Function.comp_def]
        rw [hstep, hcache, List.map_append, hquestions, ← Multiset.coe_add]
        show (↑e.taken : Multiset Request) = _
        rw [h.accounted, hwaiting]
        show _ = (↑(e.hits.map Response.question) : Multiset Request) + _ + misses.waiting
        abel
      · rw [hcache]
        exact hreads.trans h.reads
      · rw [hcache]
        exact hhits.trans h.counted

/-- A lookup that waits is one more that was taken in. -/
theorem Regular.wait (h : e.Regular config) {req : Request} {c : RangeCache} (htidy : c.Tidy)
    (hlines : c.lines = e.cache.lines) (hmisses : c.misses = e.cache.misses.add req)
    (hreads : c.stats.reads = e.cache.stats.reads + 1)
    (hhits : c.stats.hits = e.cache.stats.hits) :
    ({ e with cache := c, taken := e.taken ++ [req] } : Exposed).Regular config := by
  refine ⟨h.pos, ?_, ?_, htidy, ?_, ?_, ?_, fun rsp hrsp => ?_, ?_, ?_⟩
  · rw [hlines]
    exact h.capacity
  · rw [hlines]
    exact h.size_le
  · rw [hlines]
    exact h.buffers
  · rw [hmisses]
    exact h.misses.add req
  · rw [hmisses, h.misses.waiting_add, ← Multiset.coe_add, h.accounted, Multiset.coe_singleton]
    abel
  · obtain ⟨other, hother, hanswer⟩ := h.hits rsp hrsp
    exact ⟨other, List.mem_append_left _ hother, hanswer⟩
  · rw [hreads, h.reads, List.length_append, List.length_singleton]
  · rw [hhits, h.counted]

/-- A lookup whose entry is held is answered with it. -/
theorem Regular.hit (h : e.Regular config) {packet : Packet Request} {rest : Port Request}
    {entry : RangeEntry} (hget : e.cache.lines.get? packet.item.bufferId = some entry)
    (htidy : ((e.cache.taken now packet rest).hit now packet.item entry).Tidy) :
    ({ e with
        cache := (e.cache.taken now packet rest).hit now packet.item entry
        taken := e.taken ++ [packet.item]
        hits := e.hits ++ [packet.item.answer entry] } : Exposed).Regular config := by
  have hids := LineSet.ids_touch_perm h.tidy.nodup packet.item.bufferId
  refine ⟨h.pos, ?_, ?_, htidy, fun id hid => ?_, h.misses, ?_, fun rsp hrsp => ?_, ?_, ?_⟩
  · exact (LineSet.capacity_touch _ _).trans h.capacity
  · show (e.cache.lines.touch packet.item.bufferId).size
      ≤ (e.cache.lines.touch packet.item.bufferId).capacity
    rw [LineSet.capacity_touch, LineSet.size_touch h.tidy.nodup]
    exact h.size_le
  · exact h.buffers id (hids.mem_iff.mp hid)
  · show (↑(e.taken ++ [packet.item]) : Multiset Request) = _ + _ + e.cache.misses.waiting
    rw [List.map_append, List.map_singleton, question_answer, ← Multiset.coe_add,
      ← Multiset.coe_add, h.accounted]
    abel
  · rcases List.mem_append.mp hrsp with hrsp | hrsp
    · obtain ⟨req, hreq, hanswer⟩ := h.hits rsp hrsp
      exact ⟨req, List.mem_append_left _ hreq, hanswer⟩
    · exact ⟨packet.item, by simp, entry, by simpa using hrsp, LineSet.bufferId_of_get? hget⟩
  · show e.cache.stats.reads + 1 = _
    rw [h.reads, List.length_append, List.length_singleton]
  · show e.cache.stats.hits + 1 = _
    rw [h.counted, List.length_append, List.length_singleton]

/-- A lookup that is taken in is answered with the entry held for its buffer, or waits. -/
theorem Regular.takeRequest (h : e.Regular config) (now : Nat) (lower : Lookup.Link) :
    (e.takeRequest now lower).Regular config := by
  have htidy := h.tidy.takeRequest now lower
  rcases takeRequest_cases h.misses now lower with ⟨-, heq⟩ | ⟨packet, rest, hpop, hcases⟩
  · have hstep : e.takeRequest now lower = e := by simp [Exposed.takeRequest, heq]
    rw [hstep]
    exact h
  · have hremoved := Port.removed_of_pop? hpop
    rcases hcases with ⟨entry, hget, heq⟩ | ⟨-, -, heq⟩ | ⟨-, -, heq⟩
    · rw [heq] at htidy
      have hstep : e.takeRequest now lower = { e with
          cache := (e.cache.taken now packet rest).hit now packet.item entry
          taken := e.taken ++ [packet.item]
          hits := e.hits ++ [packet.item.answer entry] } := by
        simp [Exposed.takeRequest, heq, RangeCache.hit, Link.respond, hremoved]
      rw [hstep]
      exact h.hit hget htidy
    · rw [heq] at htidy
      have hstep : e.takeRequest now lower = { e with
          cache := (e.cache.taken now packet rest).mergeMiss packet.item
          taken := e.taken ++ [packet.item] } := by
        simp [Exposed.takeRequest, heq, mergeMiss, hremoved]
      rw [hstep]
      exact h.wait htidy rfl rfl rfl rfl
    · rw [heq] at htidy
      have hstep : e.takeRequest now lower = { e with
          cache := (e.cache.taken now packet rest).readMiss packet.item
          taken := e.taken ++ [packet.item] } := by
        simp [Exposed.takeRequest, heq, readMiss, hremoved]
      rw [hstep]
      exact h.wait htidy rfl rfl rfl rfl

/-- A cache that was reset has nothing to account for. -/
theorem Regular.reset (h : e.Regular config) : (e.step .reset).Regular config where
  pos := h.pos
  capacity := h.capacity
  size_le := Nat.zero_le _
  tidy := tidy_reset e.cache
  buffers _ hid := absurd hid List.not_mem_nil
  misses := MissTable.wellFormed_default
  accounted := rfl
  hits _ hrsp := absurd hrsp List.not_mem_nil
  reads := rfl
  counted := rfl

/-- **Whatever happens to a cache keeps it regular.** -/
theorem Regular.step (h : e.Regular config) (event : Event) : (e.step event).Regular config := by
  cases event with
  | ask req delay now => exact h.congr rfl rfl rfl rfl
  | collect now =>
    rw [Exposed.step]
    split
    · exact h
    · exact h.congr rfl rfl rfl rfl
  | cycle now lower => exact (h.takeResponse now lower).takeRequest now _
  | reset => exact h.reset

theorem Regular.after (h : e.Regular config) (events : List Event) :
    (e.after events).Regular config := by
  induction events generalizing e with
  | nil => exact h
  | cons event events ih => exact ih (h.step event)

/-! ## In order -/

theorem Regular.inOrder (h : e.Regular config) : e.InOrder config where
  nodup := h.tidy.nodup
  held id hid := by
    refine ⟨h.buffers id hid, ?_⟩
    rw [← LineSet.contains_iff, LineSet.contains, Option.isSome_iff_exists] at hid
    obtain ⟨entry, hentry⟩ := hid
    exact ⟨entry, hentry, LineSet.bufferId_of_get? hentry⟩
  size_le := h.size_le.trans_eq h.capacity
  misses := h.misses
  apart id hid := by
    rw [← Bool.not_eq_true, MissTable.contains_iff]
    exact h.tidy.apart id (LineSet.contains_iff.mp hid)
  accounted := h.accounted
  hits := h.hits
  counted := ⟨h.reads, h.counted⟩
  count := by
    have hcard := congrArg Multiset.card h.accounted
    simp only [Multiset.card_add, Multiset.coe_card, List.length_map, MissTable.card_waiting] at hcard
    rw [h.counted]
    omega

theorem regular_fresh (name : String) (id : UInt64) (h : config.capacity ≠ 0) :
    ({ cache := .fresh name id config } : Exposed).Regular config where
  pos := toNat_pos_of_ne_zero h
  capacity := rfl
  size_le := Nat.zero_le _
  tidy := ⟨List.nodup_nil, fun _ hid => absurd hid List.not_mem_nil⟩
  buffers _ hid := absurd hid List.not_mem_nil
  misses := MissTable.wellFormed_default
  accounted := rfl
  hits _ hrsp := absurd hrsp List.not_mem_nil
  reads := rfl
  counted := rfl

/-- **A cache stays in order in any surroundings**: whatever is sent to it, whatever comes from
below, and whenever it works or is reset. -/
theorem stays_in_order {name : String} {id : UInt64} {c : RangeCache}
    (hnew : RangeCache.new name id config = .ok c) (events : List Event) :
    (({ cache := c } : Exposed).after events).InOrder config := by
  have hcapacity : config.capacity ≠ 0 := by
    intro hzero
    rw [RangeCache.new, LineSet.new, if_pos (by rw [hzero]; rfl)] at hnew
    cases hnew
  rw [RangeCache.new_eq_fresh hcapacity] at hnew
  cases hnew
  exact ((regular_fresh name id hcapacity).after events).inOrder

/-- A cache with room for one entry, used least recently first.  The response to the lookup of the
buffer `1` brings the entry of the buffer `7`, then an entry of the buffer `1` comes that nobody has
asked for, twice, and is found by another lookup.  A lookup of the buffer `2` waits when the cache
is reset, and its answer comes too late. -/
theorem stays_in_order_wrong_entry :
    let entry (id : BufferId) : RangeEntry := ⟨id, 0x100, 8, false, 0⟩
    let below (rsp : Response) : Lookup.Link := ⟨{}, ⟨[⟨rsp, 0, 1⟩]⟩⟩
    ∃ c, RangeCache.new "l1" 0 { capacity := 1, policy := .lru } = .ok c ∧
      (({ cache := c } : Exposed).after
        [.ask ⟨0x100, 1, 0, 10⟩ 1 0, .cycle 1 {}, .cycle 2 (below ⟨0, entry 7, 10, 0x100, 1⟩),
          .cycle 3 (below ⟨9, entry 1, 11, 0x100, 1⟩), .ask ⟨0x104, 1, 1, 12⟩ 1 3,
          .cycle 4 (below ⟨9, entry 1, 11, 0x100, 1⟩), .collect 5, .ask ⟨0x200, 2, 2, 13⟩ 1 5,
          .cycle 6 {}, .reset, .cycle 1 (below ⟨2, entry 2, 13, 0x200, 2⟩)]).InOrder
            { capacity := 1, policy := .lru } :=
  ⟨_, rfl, stays_in_order rfl _⟩

end Exposed

end RangeCache

end BoundsCheck
