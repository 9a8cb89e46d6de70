import BoundsCheck.RangeCache
import BoundsCheck.RangeTable
import BoundsCheck.Proofs.Misses

/-!
# Servers of lookups

A server may answer a lookup at once, let it wait or pass a copy of it on, but it never loses or
invents one.  For the table this is a statement about its link; a cache has two sides to it: above,
every lookup stays pending until it is answered, and below, exactly the first questions of the
pending misses are under way.

* `RangeTable.underway_cycle`, `RangeTable.answers_cycle` — the table.
* `RangeCache.pending` — the lookups a cache still owes an answer.
* `RangeCache.pending_cycle` — a cycle changes nothing about them.
* `RangeCache.heads_cycle` — what is under way below stays in step with the pending misses.
* `RangeCache.Knows` — all entries held are those that a given function names.
* `RangeCache.honest_cycle` — this stays so if the answers from below bring such entries.
-/

set_option autoImplicit false

namespace BoundsCheck

open Lookup

/-! ## The range table -/

namespace RangeTable

theorem entries_foldl_serve (now : Nat) (packets : List (Packet Request)) (t : RangeTable) :
    (packets.foldl (serve now) t).entries = t.entries := by
  induction packets generalizing t with
  | nil => rfl
  | cons packet packets ih => exact ih _

theorem latency_foldl_serve (now : Nat) (packets : List (Packet Request)) (t : RangeTable) :
    (packets.foldl (serve now) t).latency = t.latency := by
  induction packets generalizing t with
  | nil => rfl
  | cons packet packets ih => exact ih _

theorem requests_foldl_serve (now : Nat) (packets : List (Packet Request)) (t : RangeTable) :
    (packets.foldl (serve now) t).port.requests = t.port.requests := by
  induction packets generalizing t with
  | nil => rfl
  | cons packet packets ih => exact ih _

theorem underway_foldl_serve (now : Nat) (packets : List (Packet Request)) (t : RangeTable) :
    underway (packets.foldl (serve now) t).port
      = underway t.port + ↑(packets.map (·.item)) := by
  induction packets generalizing t with
  | nil => simp
  | cons packet packets ih =>
    rw [List.foldl_cons, ih, serve, underway_respond, question_answer, List.map_cons,
      ← Multiset.cons_coe, ← Multiset.singleton_add]
    abel

theorem answers_foldl_serve (now : Nat) (packets : List (Packet Request)) {t : RangeTable}
    (h : Answers t.answerFor t.port) :
    Answers t.answerFor (packets.foldl (serve now) t).port := by
  induction packets generalizing t with
  | nil => exact h
  | cons packet packets ih => exact ih (t := serve now t packet) (h.respond rfl _ _)

/-- Each lookup that is answered is counted, apart if the table does not know its buffer, and so are
the cycles since it was sent. -/
theorem stats_foldl_serve (now : Nat) (packets : List (Packet Request)) (t : RangeTable) :
    (packets.foldl (serve now) t).stats = {
      lookups := t.stats.lookups + packets.length
      unknownBufferIds := t.stats.unknownBufferIds
        + packets.countP fun packet => !(t.get? packet.item.bufferId).isSome
      queueingCycles := t.stats.queueingCycles + (packets.map (now - ·.sent)).sum } := by
  induction packets generalizing t with
  | nil => rfl
  | cons packet packets ih =>
    have hsame : (serve now t packet).get? = t.get? := rfl
    rw [List.foldl_cons, ih, hsame, List.length_cons, List.countP_cons, List.map_cons, List.sum_cons,
      Stats.Table.mk.injEq]
    refine ⟨?_, ?_, ?_⟩
    · show t.stats.lookups + 1 + packets.length = _
      omega
    · show t.stats.unknownBufferIds + (if (t.get? packet.item.bufferId).isSome then 0 else 1) + _ = _
      rcases t.get? packet.item.bufferId with _ | entry
      · simp; omega
      · simp
    · show t.stats.queueingCycles + (now - packet.sent) + _ = _
      omega

/-! ### A cycle of the table -/

@[simp] theorem entries_cycle (now : Nat) (t : RangeTable) : (t.cycle now).entries = t.entries :=
  entries_foldl_serve now _ _

@[simp] theorem latency_cycle (now : Nat) (t : RangeTable) : (t.cycle now).latency = t.latency :=
  latency_foldl_serve now _ _

theorem requests_cycle (now : Nat) (t : RangeTable) :
    (t.cycle now).port.requests = (t.port.requests.drain now).2 :=
  requests_foldl_serve now _ _

/-- **The table loses no lookup and invents none.** -/
@[simp] theorem underway_cycle (now : Nat) (t : RangeTable) :
    underway (t.cycle now).port = underway t.port := by
  rw [cycle, underway_foldl_serve]
  simp only [underway, t.port.requests.items_drain now, ← Multiset.coe_add]
  abel

/-- The table answers with its entries. -/
theorem answers_cycle (now : Nat) {t : RangeTable} (h : Answers t.answerFor t.port) :
    Answers t.answerFor (t.cycle now).port :=
  answers_foldl_serve now _ (t := { t with port := { t.port with requests := _ } }) h

end RangeTable

/-! ## Range caches -/

namespace RangeCache

/-- The lookups a cache still owes an answer, or whose answer has not been taken off its port. -/
def pending (c : RangeCache) : Multiset Request := underway c.port + c.misses.waiting

/-- All entries held are those that `f` names. -/
def Knows (f : BufferId → RangeEntry) (c : RangeCache) : Prop :=
  ∀ entry ∈ c.lines.lines, f entry.bufferId = entry

variable {c : RangeCache} {now : Nat} {lower : Lookup.Link} {f : BufferId → RangeEntry}

/-! ### The parts of a cycle -/

/-- A cycle takes in a response, and then a request. -/
theorem cycle_eq (now : Nat) (lower : Lookup.Link) (c : RangeCache) :
    c.cycle now lower = (c.countWaiting.takeResponse now lower).1.takeRequest now
      (c.countWaiting.takeResponse now lower).2 := rfl

/-- The cache after a request was taken off its port, and before it is looked at. -/
def taken (now : Nat) (packet : Packet Request) (rest : Port Request) (c : RangeCache) :
    RangeCache :=
  { c with port.requests := rest }.countRead now packet.sent

theorem takeRequest_of_pop? {packet : Packet Request} {rest : Port Request}
    (hpop : c.port.requests.pop? now = some (packet, rest)) :
    c.takeRequest now lower = (c.taken now packet rest).access now packet.item lower := by
  rw [takeRequest, hpop, taken]

@[simp] theorem misses_keep (rsp : Response) (c : RangeCache) : (c.keep rsp).misses = c.misses := by
  rw [keep]; split <;> rfl

@[simp] theorem port_keep (rsp : Response) (c : RangeCache) : (c.keep rsp).port = c.port := by
  rw [keep]; split <;> rfl

@[simp] theorem config_keep (rsp : Response) (c : RangeCache) : (c.keep rsp).config = c.config := by
  rw [keep]; split <;> rfl

@[simp] theorem lines_answerWaiting (now : Nat) (rsp : Response) (c : RangeCache) :
    (c.answerWaiting now rsp).lines = c.lines := by
  rw [answerWaiting]; split <;> rfl

@[simp] theorem config_answerWaiting (now : Nat) (rsp : Response) (c : RangeCache) :
    (c.answerWaiting now rsp).config = c.config := by
  rw [answerWaiting]; split <;> rfl

@[simp] theorem requests_answerWaiting (now : Nat) (rsp : Response) (c : RangeCache) :
    (c.answerWaiting now rsp).port.requests = c.port.requests := by
  rw [answerWaiting]; split <;> rfl

@[simp] theorem config_access (now : Nat) (req : Request) (lower : Lookup.Link) (c : RangeCache) :
    (c.access now req lower).1.config = c.config := by
  rw [access]; split
  · rfl
  · split <;> rfl

@[simp] theorem requests_access (now : Nat) (req : Request) (lower : Lookup.Link)
    (c : RangeCache) : (c.access now req lower).1.port.requests = c.port.requests := by
  rw [access]; split
  · rfl
  · split <;> rfl

@[simp] theorem config_takeResponse (now : Nat) (lower : Lookup.Link) (c : RangeCache) :
    (c.takeResponse now lower).1.config = c.config := by
  rw [takeResponse]; split
  · rfl
  · rw [fill, config_answerWaiting, config_keep]

@[simp] theorem config_takeRequest (now : Nat) (lower : Lookup.Link) (c : RangeCache) :
    (c.takeRequest now lower).1.config = c.config := by
  rcases hpop : c.port.requests.pop? now with _ | ⟨packet, rest⟩
  · rw [takeRequest, hpop]
  · rw [takeRequest_of_pop? hpop, config_access]; rfl

@[simp] theorem config_cycle (now : Nat) (lower : Lookup.Link) (c : RangeCache) :
    (c.cycle now lower).1.config = c.config := by
  rw [cycle_eq, config_takeRequest, config_takeResponse]; rfl

/-! ### Nothing is lost above -/

theorem wellFormed_answerWaiting (h : c.misses.WellFormed) (now : Nat) (rsp : Response) :
    (c.answerWaiting now rsp).misses.WellFormed := by
  rw [answerWaiting]
  split
  · exact h
  · rename_i htake
    exact (h.of_take? htake).2.1

theorem wellFormed_access (h : c.misses.WellFormed) (now : Nat) (req : Request)
    (lower : Lookup.Link) : (c.access now req lower).1.misses.WellFormed := by
  rw [access]
  split
  · exact h
  · split
    · exact h.add req
    · exact h.add req

theorem wellFormed_takeResponse (h : c.misses.WellFormed) (now : Nat) (lower : Lookup.Link) :
    (c.takeResponse now lower).1.misses.WellFormed := by
  rw [takeResponse]
  split
  · exact h
  · exact wellFormed_answerWaiting (by rwa [misses_keep]) now _

theorem wellFormed_takeRequest (h : c.misses.WellFormed) (now : Nat) (lower : Lookup.Link) :
    (c.takeRequest now lower).1.misses.WellFormed := by
  rcases hpop : c.port.requests.pop? now with _ | ⟨packet, rest⟩
  · rwa [takeRequest, hpop]
  · rw [takeRequest_of_pop? hpop]
    exact wellFormed_access (c := c.taken now packet rest) h now _ _

theorem wellFormed_cycle (h : c.misses.WellFormed) (now : Nat) (lower : Lookup.Link) :
    (c.cycle now lower).1.misses.WellFormed :=
  wellFormed_takeRequest (wellFormed_takeResponse (c := c.countWaiting) h now lower) now _

/-- The questions that waited are still pending as answers. -/
theorem pending_answerWaiting (h : c.misses.WellFormed) (now : Nat) (rsp : Response) :
    (c.answerWaiting now rsp).pending = c.pending := by
  rw [answerWaiting]
  split
  · rfl
  · rename_i waiting misses htake
    rw [pending, pending, (h.of_take? htake).1]
    simp only [underway, Port.items_sendAll, List.map_append, List.map_map, Function.comp_def,
      question_answer, List.map_id', ← Multiset.coe_add]
    abel

/-- A question that is taken in is answered or waits. -/
theorem pending_access (h : c.misses.WellFormed) (now : Nat) (req : Request)
    (lower : Lookup.Link) : (c.access now req lower).1.pending = c.pending + {req} := by
  rw [access]
  split
  · rw [pending, pending, hit, underway_respond, question_answer]
    abel
  · split
    · rw [pending, pending, mergeMiss, h.waiting_add]
      abel
    · rw [pending, pending, readMiss, h.waiting_add]
      abel

theorem pending_takeResponse (h : c.misses.WellFormed) (now : Nat) (lower : Lookup.Link) :
    (c.takeResponse now lower).1.pending = c.pending := by
  rw [takeResponse]
  split
  · rfl
  · rw [fill, pending_answerWaiting (by rwa [misses_keep])]
    simp only [pending, port_keep, misses_keep]

theorem pending_takeRequest (h : c.misses.WellFormed) (now : Nat) (lower : Lookup.Link) :
    (c.takeRequest now lower).1.pending = c.pending := by
  rcases hpop : c.port.requests.pop? now with _ | ⟨packet, rest⟩
  · rw [takeRequest, hpop]
  · rw [takeRequest_of_pop? hpop, pending_access (c := c.taken now packet rest) h, pending, pending,
      underway_of_pop?_requests hpop]
    show underway { c.port with requests := rest } + c.misses.waiting + {packet.item} = _
    abel

/-- **A cycle of a cache neither loses nor invents a lookup.** -/
theorem pending_cycle (h : c.misses.WellFormed) (now : Nat) (lower : Lookup.Link) :
    (c.cycle now lower).1.pending = c.pending := by
  rw [cycle_eq,
    pending_takeRequest (wellFormed_takeResponse (c := c.countWaiting) h now lower),
    pending_takeResponse (c := c.countWaiting) h]
  rfl

/-! ### What is under way below -/

/-- The misses of a cache while `rest` of its questions is under way beyond the link below. -/
theorem heads_takeResponse (h : c.misses.WellFormed) {rest : Multiset Request}
    (hbelow : underway lower + rest = c.misses.heads) :
    underway (c.takeResponse now lower).2 + rest = (c.takeResponse now lower).1.misses.heads := by
  rw [takeResponse]
  split
  · exact hbelow
  · rename_i packet others hpop
    have hmem : packet.item.question ∈ c.misses.heads := by
      rw [← hbelow]
      exact Multiset.mem_add.mpr (.inl (mem_underway_of_pop?_responses hpop))
    obtain ⟨reqs, misses, htake, hheads⟩ := h.take?_of_mem_heads hmem
    change c.misses.take? packet.item.bufferId = _ at htake
    rw [underway_of_pop?_responses hpop, hheads, add_assoc, add_right_inj] at hbelow
    simp only [fill, answerWaiting, misses_keep, htake]
    exact hbelow

theorem heads_access (h : c.misses.WellFormed) {rest : Multiset Request}
    (hbelow : underway lower + rest = c.misses.heads) (now : Nat) (req : Request) :
    underway (c.access now req lower).2 + rest = (c.access now req lower).1.misses.heads := by
  rw [access]
  split
  · exact hbelow
  · rw [h.merges_eq]
    split
    · rename_i hc
      rw [mergeMiss, h.heads_add_of_contains hc]
      exact hbelow
    · rename_i hc
      rw [readMiss, MissTable.heads_add_of_not_contains (by simpa using hc), underway_request,
        ← hbelow]
      abel

theorem heads_takeRequest (h : c.misses.WellFormed) {rest : Multiset Request}
    (hbelow : underway lower + rest = c.misses.heads) (now : Nat) :
    underway (c.takeRequest now lower).2 + rest = (c.takeRequest now lower).1.misses.heads := by
  rcases hpop : c.port.requests.pop? now with _ | ⟨packet, others⟩
  · rwa [takeRequest, hpop]
  · rw [takeRequest_of_pop? hpop]
    exact heads_access (c := c.taken now packet others) h hbelow now _

/-- **Below a cache exactly the first questions of its misses are under way**, if those that are
beyond the link below are counted as well. -/
theorem heads_cycle (h : c.misses.WellFormed) {rest : Multiset Request}
    (hbelow : underway lower + rest = c.misses.heads) (now : Nat) :
    underway (c.cycle now lower).2 + rest = (c.cycle now lower).1.misses.heads := by
  rw [cycle_eq]
  exact heads_takeRequest (wellFormed_takeResponse (c := c.countWaiting) h now lower)
    (heads_takeResponse (c := c.countWaiting) h hbelow) now

/-! ### The entries held and handed out -/

theorem mem_lines_add {lines : LineSet} {entry other : RangeEntry}
    (h : other ∈ (lines.add entry).lines) : other ∈ lines.lines ∨ other = entry := by
  rw [LineSet.add] at h
  split at h
  · exact .inl h
  · split at h
    · rcases List.mem_append.mp h with h | h
      · exact .inl (List.mem_of_mem_tail h)
      · exact .inr (List.mem_singleton.mp h)
    · rcases List.mem_append.mp h with h | h
      · exact .inl h
      · exact .inr (List.mem_singleton.mp h)

theorem mem_lines_touch {lines : LineSet} {id : BufferId} {other : RangeEntry}
    (h : other ∈ (lines.touch id).lines) : other ∈ lines.lines := by
  rw [LineSet.touch] at h
  split at h
  · exact h
  · split at h
    · exact h
    · rename_i entry hget
      rcases List.mem_append.mp h with h | h
      · exact List.mem_of_mem_filter h
      · rw [List.mem_singleton.mp h]
        exact List.mem_of_find?_eq_some hget

/-- An entry that is found is the one that is named for the buffer. -/
theorem Knows.get? (h : c.Knows f) {id : BufferId} {entry : RangeEntry}
    (hget : c.lines.get? id = some entry) : entry = f id := by
  have hid : entry.bufferId = id := by simpa using List.find?_some hget
  rw [← hid]
  exact (h entry (List.mem_of_find?_eq_some hget)).symm

theorem Knows.keep (h : c.Knows f) {rsp : Response} (hrsp : rsp.entry = f rsp.bufferId) :
    (c.keep rsp).Knows f := by
  rw [RangeCache.keep]
  split
  · rename_i hreal
    intro entry hmem
    rcases mem_lines_add hmem with hmem | rfl
    · exact h entry hmem
    · rw [isRealEntry, Bool.and_eq_true, beq_iff_eq] at hreal
      rw [hreal.2]
      exact hrsp.symm
  · exact h

theorem answers_answerWaiting (h : Answers f c.port) {rsp : Response}
    (hrsp : rsp.entry = f rsp.bufferId) (hwf : c.misses.WellFormed) (now : Nat) :
    Answers f (c.answerWaiting now rsp).port := by
  rw [answerWaiting]
  split
  · exact h
  · rename_i waiting misses htake
    intro other hmem
    rw [Port.items_sendAll, List.mem_append, List.mem_map] at hmem
    rcases hmem with hmem | ⟨req, hreq, rfl⟩
    · exact h other hmem
    · have hid := (hwf.of_take? htake).2.2.1 req hreq
      show rsp.entry = f req.bufferId
      rw [hrsp, hid]

theorem honest_fill (hk : c.Knows f) (ha : Answers f c.port) (hwf : c.misses.WellFormed)
    {rsp : Response} (hrsp : rsp.entry = f rsp.bufferId) (now : Nat) :
    (c.fill now rsp).Knows f ∧ Answers f (c.fill now rsp).port := by
  refine ⟨?_, ?_⟩
  · rw [Knows, fill, lines_answerWaiting]
    exact hk.keep hrsp
  · exact answers_answerWaiting (by rwa [port_keep]) hrsp (by rwa [misses_keep]) now

theorem honest_takeResponse (hk : c.Knows f) (ha : Answers f c.port) (hwf : c.misses.WellFormed)
    (hlower : Answers f lower) (now : Nat) :
    (c.takeResponse now lower).1.Knows f ∧ Answers f (c.takeResponse now lower).1.port ∧
      Answers f (c.takeResponse now lower).2 := by
  rw [takeResponse]
  split
  · exact ⟨hk, ha, hlower⟩
  · rename_i packet rest hpop
    obtain ⟨hentry, hrest⟩ := hlower.pop? hpop
    obtain ⟨hk', ha'⟩ := honest_fill hk ha hwf hentry now
    exact ⟨hk', ha', hrest⟩

theorem honest_access (hk : c.Knows f) (ha : Answers f c.port) (hlower : Answers f lower)
    (now : Nat) (req : Request) :
    (c.access now req lower).1.Knows f ∧ Answers f (c.access now req lower).1.port ∧
      Answers f (c.access now req lower).2 := by
  rw [access]
  split
  · rename_i entry hget
    exact ⟨fun other hmem => hk other (mem_lines_touch hmem), ha.respond (hk.get? hget) _ _, hlower⟩
  · split
    · exact ⟨hk, ha, hlower⟩
    · exact ⟨hk, ha, hlower.request req _ _⟩

theorem honest_takeRequest (hk : c.Knows f) (ha : Answers f c.port) (hlower : Answers f lower)
    (now : Nat) :
    (c.takeRequest now lower).1.Knows f ∧ Answers f (c.takeRequest now lower).1.port ∧
      Answers f (c.takeRequest now lower).2 := by
  rcases hpop : c.port.requests.pop? now with _ | ⟨packet, rest⟩
  · rw [takeRequest, hpop]
    exact ⟨hk, ha, hlower⟩
  · rw [takeRequest_of_pop? hpop]
    exact honest_access (c := c.taken now packet rest) hk ha hlower now _

/-- **A cache hands out what it was told**: if the answers from below bring the entries that `f`
names, then so do its own, and it holds no other entry. -/
theorem honest_cycle (hk : c.Knows f) (ha : Answers f c.port) (hwf : c.misses.WellFormed)
    (hlower : Answers f lower) (now : Nat) :
    (c.cycle now lower).1.Knows f ∧ Answers f (c.cycle now lower).1.port ∧
      Answers f (c.cycle now lower).2 := by
  obtain ⟨hk', ha', hlower'⟩ := honest_takeResponse (c := c.countWaiting) hk ha hwf hlower now
  exact honest_takeRequest hk' ha' hlower' now

/-! ### Times -/

@[simp] theorem requests_takeResponse (now : Nat) (lower : Lookup.Link) (c : RangeCache) :
    (c.takeResponse now lower).1.port.requests = c.port.requests ∧
      (c.takeResponse now lower).2.requests = lower.requests := by
  rw [takeResponse]
  split
  · exact ⟨rfl, rfl⟩
  · rw [fill, requests_answerWaiting, port_keep]
    exact ⟨rfl, rfl⟩

theorem timely_requests_access (hlower : lower.requests.Timely)
    (hlatency : c.config.forwardingLatency ≠ 0) (now : Nat) (req : Request) :
    (c.access now req lower).2.requests.Timely := by
  rw [access]
  split
  · exact hlower
  · split
    · exact hlower
    · refine hlower.send req (fun h => hlatency ?_) now
      rwa [← UInt64.toNat_inj]

/-- A cache whose latencies are positive keeps the questions above and below it timely. -/
theorem timely_requests_cycle (hport : c.port.requests.Timely) (hlower : lower.requests.Timely)
    (hlatency : c.config.forwardingLatency ≠ 0) (now : Nat) :
    (c.cycle now lower).1.port.requests.Timely ∧ (c.cycle now lower).2.requests.Timely := by
  obtain ⟨habove, hbelow⟩ := requests_takeResponse now lower c.countWaiting
  rw [← hbelow] at hlower
  change c.countWaiting.port.requests.Timely at hport
  rw [← habove] at hport
  rw [cycle_eq]
  generalize hd : (c.countWaiting.takeResponse now lower).1 = d at hport
  have hconfig : d.config.forwardingLatency ≠ 0 := by
    rwa [← hd, config_takeResponse]
  rcases hpop : d.port.requests.pop? now with _ | ⟨packet, rest⟩
  · rw [takeRequest, hpop]
    exact ⟨hport, hlower⟩
  · rw [takeRequest_of_pop? hpop, requests_access]
    exact ⟨hport.pop? hpop,
      timely_requests_access (c := d.taken now packet rest) hlower hconfig now _⟩

end RangeCache

end BoundsCheck
