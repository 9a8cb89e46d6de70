import BoundsCheck.Proofs.Flight

/-!
# The latency of a lookup

A machine with nothing left to do is given a single trace.  Its lookup passes every part of the
machine at most once in each direction, and the cycles it spends on the way add up: they depend on
which of the caches hold the entry, and on nothing that happened before.

* `Config.lookupCycle` — the cycle in which the trace is judged.
* `Flight.asking`, `Flight.answering` — a lookup on its way past the switch.
* `Lane.shared_leads` — the way through the shared cache, with or without the table.
* `Lane.away_leads` — the way from the cache of the core and back.
* `Drive.lookup_latency` — when the trace is judged, and what the verdict is.
-/

set_option autoImplicit false

namespace BoundsCheck

open Lookup

/-- The cycle in which a trace is judged that is given to a machine with nothing left to do, by
which caches hold its entry. -/
def Config.lookupCycle (c : Config) (start : Nat) (inL1 inL2 : Bool) : Nat :=
  if inL1 then start + 2 + c.l1.hitLatency.toNat
  else
    start + 2 + c.l1.forwardingLatency.toNat
      + (if inL2 then 0 else c.l2.forwardingLatency.toNat + c.table.latency.toNat)
      + c.l2.hitLatency.toNat + c.l1.hitLatency.toNat
      + if c.cores.toNat = 1 then 0 else c.switch.delay.toNat + 1

namespace Port

variable {α : Type} {item : α} {delay sent now : Nat}

/-- A single item cannot be taken out before it is due. -/
theorem pop?_send_of_lt (hlate : now < sent + delay) :
    (({} : Port α).send item delay sent).pop? now = none :=
  if_neg (Nat.not_le_of_lt hlate)

/-- When it is due, it leaves nothing behind. -/
theorem pop?_send_self (item : α) (delay sent : Nat) :
    (({} : Port α).send item delay sent).pop? (sent + delay)
      = some (⟨item, sent, sent + delay⟩, {}) :=
  if_pos (Nat.le_refl _)

end Port

/-! ## A single trace on its way -/

namespace Course

variable {c : Config} {trace : Trace} {held : BufferId → Bool} {sent now : Nat}

/-- The course of a core with a single trace, whose lookup the cache has passed on. -/
def away (trace : Trace) (req : Request) (held : BufferId → Bool) : Course :=
  { waiting := some (trace, req), held := held }

/-- The checker is given the trace. -/
theorem work_of_queue (hroom : 0 < c.checker.queueSize.toNat) :
    ({ queue := [trace], held := held } : Course).work c now
      = { input := [⟨trace, now⟩], held := held } :=
  if_pos hroom

/-- It asks the cache. -/
theorem work_of_input :
    ({ input := [⟨trace, sent⟩], held := held } : Course).work c (sent + 1)
      = { asked := [⟨trace, sent + 1⟩], held := held } := by
  simp [work, judge, ask, collect, feed, passOn]

/-- The cache answers. -/
theorem hit_of_asked :
    ({ asked := [⟨trace, sent⟩], held := held } : Course).hit (sent + 1)
      = { answered := [⟨trace, sent + 1⟩], held := held } := by
  simp [hit, passOn]

/-- An answer on its way is not judged. -/
theorem work_of_answered_of_lt (hlate : now < sent + c.l1.hitLatency.toNat) :
    ({ answered := [⟨trace, sent⟩], held := held } : Course).work c now
      = { answered := [⟨trace, sent⟩], held := held } := by
  simp [work, judge, ask, collect, feed, passOn, Nat.not_le_of_lt hlate]

/-- The trace is judged when its answer comes. -/
theorem work_of_answered :
    ({ answered := [⟨trace, sent⟩], held := held } : Course).work c (sent + c.l1.hitLatency.toNat)
      = { output := [⟨trace, sent + c.l1.hitLatency.toNat⟩], held := held } := by
  simp [work, judge, ask, collect, feed, passOn]

/-- Then it goes. -/
theorem work_of_output :
    ({ output := [⟨trace, sent⟩], held := held } : Course).work c (sent + 1)
      = { gone := [⟨trace, sent⟩], held := held } := by
  simp [work, judge, ask, collect, feed, passOn]

end Course

/-! ## A single lookup on its way -/

namespace Flight

/-- The shared cache has been asked. -/
def passed (req : Request) (delay sent : Nat) (held : BufferId → Bool) : Flight :=
  { port := ({} : Lookup.Link).request req delay sent, held := held }

/-- The core has asked.  A switch with a single input lets the question through at once. -/
def asking (c : Config) (req : Request) (delay sent : Nat) (held : BufferId → Bool) : Flight :=
  if c.cores.toNat = 1 then passed req delay sent held
  else { link := ({} : Lookup.Link).request req delay sent, held := held }

/-- The table has been asked. -/
def looking (req : Request) (delay sent : Nat) : Flight where
  misses := ⟨[⟨req.bufferId, [req]⟩]⟩
  table := ({} : Lookup.Link).request req delay sent

/-- The table has answered. -/
def found (req : Request) (rsp : Response) (delay sent : Nat) : Flight where
  misses := ⟨[⟨req.bufferId, [req]⟩]⟩
  table := ({} : Lookup.Link).respond rsp delay sent

/-- The answer is on its way to the core. -/
def returning (rsp : Response) (delay sent : Nat) : Flight where
  link := ({} : Lookup.Link).respond rsp delay sent

/-- The shared cache has answered.  A switch with a single input lets the answer through at once. -/
def answering (c : Config) (rsp : Response) (delay sent : Nat) : Flight :=
  if c.cores.toNat = 1 then returning rsp delay sent
  else { port := ({} : Lookup.Link).respond rsp delay sent }

end Flight

namespace Lane

variable {c : Config} {resolver : Resolver} {k now : Nat} {earlier : List Verdict} {w : Course}
  {f : Flight} {l : Lane} {req : Request} {rsp : Response} {delay sent : Nat}
  {held shared : BufferId → Bool}

/-! ## The switch -/

/-- A question arrives at the switch. -/
theorem Carries.relay_asking (h : l.Carries c resolver k earlier w
      { link := ({} : Lookup.Link).request req delay now, held := shared })
    (hdelay : 0 < delay) :
    (l.relay c k now).Carries c resolver k earlier w (.asking c req delay now shared) := by
  rw [Flight.asking]
  split
  · rename_i hone
    rw [relay, if_pos hone]
    exact h.passThrough
  · rename_i hmany
    exact h.relay_of_idle now (Port.pop?_send_of_lt (Nat.lt_add_of_pos_right hdelay)) rfl
      fun hone => absurd hone hmany

/-- A switch with several inputs passes the question on. -/
theorem Carries.relay_granting (hmany : c.cores.toNat ≠ 1) (h : l.Carries c resolver k earlier w
      { link := ({} : Lookup.Link).request req delay sent, held := shared }) :
    (l.relay c k (sent + delay)).Carries c resolver k earlier w
      (.passed (Switch.stamped (TagPacking.tagShift c.cores.toNat) (k, req))
        c.switch.delay.toNat (sent + delay) shared) := by
  have hpop : l.link.requests.pop? (sent + delay) = some (⟨req, sent, sent + delay⟩, {}) := by
    rw [h.link]
    exact Port.pop?_send_self req delay sent
  rw [relay, if_neg hmany, h.deliver_of_idle rfl, grant, hpop]
  refine ⟨h.core, ?_, ?_, h.misses, h.table, h.held, h.knows, h.config, h.entries, h.latency⟩
  · show (⟨{}, l.link.responses⟩ : Lookup.Link) = {}
    rw [h.link]
    rfl
  · show l.l2.port.request _ _ _ = _
    rw [h.port]
    rfl

/-- An answer arrives at the switch. -/
theorem Carries.relay_answering (h : l.Carries c resolver k earlier w
      { port := ({} : Lookup.Link).respond rsp delay now }) (hdelay : 0 < delay) :
    (l.relay c k now).Carries c resolver k earlier w (.answering c rsp delay now) := by
  rw [Flight.answering]
  split
  · rename_i hone
    rw [relay, if_pos hone]
    exact h.passThrough
  · rename_i hmany
    exact h.relay_of_idle now rfl (Port.pop?_send_of_lt (Nat.lt_add_of_pos_right hdelay))
      fun hone => absurd hone hmany

/-- A switch with several inputs delivers the answer. -/
theorem Carries.relay_delivering (hmany : c.cores.toNat ≠ 1) (h : l.Carries c resolver k earlier w
      { port := ({} : Lookup.Link).respond rsp delay sent }) :
    (l.relay c k (sent + delay)).Carries c resolver k earlier w
      (.returning { rsp with
        tag := TagPacking.unstamp (TagPacking.tagShift c.cores.toNat) rsp.tag } 1
        (sent + delay)) := by
  have hpop : l.l2.port.responses.pop? (sent + delay) = some (⟨rsp, sent, sent + delay⟩, {}) := by
    rw [h.port]
    exact Port.pop?_send_self rsp delay sent
  have hdelivered : (l.deliver (TagPacking.tagShift c.cores.toNat) (sent + delay)).Carries c
      resolver k earlier w (.returning { rsp with
        tag := TagPacking.unstamp (TagPacking.tagShift c.cores.toNat) rsp.tag } 1
        (sent + delay)) := by
    rw [deliver, hpop]
    refine ⟨h.core, ?_, ?_, h.misses, h.table, h.held, h.knows, h.config, h.entries, h.latency⟩
    · show l.link.respond _ _ _ = _
      rw [h.link]
      rfl
    · show (⟨l.l2.port.requests, {}⟩ : Lookup.Link) = {}
      rw [h.port]
      rfl
  rw [relay, if_neg hmany, hdelivered.grant_of_idle rfl]
  exact hdelivered

/-! ## The shared cache and the table -/

/-- The shared cache answers, if it holds the entry. -/
theorem Carries.cycleL2_hit
    (h : l.Carries c resolver k earlier w (.passed req delay sent shared))
    (hshared : shared req.bufferId = true) :
    (l.cycleL2 (sent + delay)).Carries c resolver k earlier w
      { port := ({} : Lookup.Link).respond (req.answer (c.answerFor req.bufferId))
          c.l2.hitLatency.toNat (sent + delay) } := by
  have hpop : l.l2.port.requests.pop? (sent + delay) = some (⟨req, sent, sent + delay⟩, {}) := by
    rw [h.port]
    exact Port.pop?_send_self req delay sent
  have hnone : l.table.port.responses.pop? (sent + delay) = none := by
    rw [h.table]
    rfl
  rw [← h.held shared rfl, LineSet.contains, Option.isSome_iff_exists] at hshared
  obtain ⟨entry, hget⟩ := hshared
  rw [← h.knows.get? hget, cycleL2, RangeCache.cycle_of_held hnone hpop hget]
  refine ⟨h.core, h.link, ?_, h.misses, h.table,
    fun _ hnone => absurd hnone (Option.not_mem_none _),
    fun other hother => h.knows other (RangeCache.mem_lines_touch hother), h.config, h.entries,
    h.latency⟩
  show (⟨{}, l.l2.port.responses⟩ : Lookup.Link).respond _ l.l2.config.hitLatency.toNat _ = _
  rw [h.port, h.config]
  rfl

/-- It asks the table, if it does not. -/
theorem Carries.cycleL2_miss
    (h : l.Carries c resolver k earlier w (.passed req delay sent shared))
    (hshared : shared req.bufferId = false) :
    (l.cycleL2 (sent + delay)).Carries c resolver k earlier w
      (.looking req c.l2.forwardingLatency.toNat (sent + delay)) := by
  have hpop : l.l2.port.requests.pop? (sent + delay) = some (⟨req, sent, sent + delay⟩, {}) := by
    rw [h.port]
    exact Port.pop?_send_self req delay sent
  have hnone : l.table.port.responses.pop? (sent + delay) = none := by
    rw [h.table]
    rfl
  rw [← h.held shared rfl] at hshared
  rw [cycleL2, RangeCache.cycle_of_missing hnone hpop hshared h.misses]
  refine ⟨h.core, h.link, ?_, ?_, ?_, fun _ hnone => absurd hnone (Option.not_mem_none _), h.knows,
    h.config, h.entries, h.latency⟩
  · show (⟨{}, l.l2.port.responses⟩ : Lookup.Link) = {}
    rw [h.port]
    rfl
  · show l.l2.misses.add req = _
    rw [h.misses]
    rfl
  · show l.table.port.request req l.l2.config.forwardingLatency.toNat _ = _
    rw [h.table, h.config]
    rfl

/-- The table answers. -/
theorem Carries.cycleTable_found
    (h : l.Carries c resolver k earlier w (.looking req delay sent)) :
    (l.cycleTable (sent + delay)).Carries c resolver k earlier w
      (.found req (req.answer (c.answerFor req.bufferId)) c.table.latency.toNat
        (sent + delay)) := by
  have hanswer : l.table.answerFor req.bufferId = c.answerFor req.bufferId := by
    rw [RangeTable.answerFor, RangeTable.get?, h.entries, Config.answerFor, Config.entry?]
  have hdrain : l.table.port.requests.drain (sent + delay) = ([⟨req, sent, sent + delay⟩], {}) := by
    rw [h.table]
    simp [Flight.looking, Link.request, Port.send, Port.drain]
  refine ⟨h.core, h.link, h.port, h.misses, ?_, h.held, h.knows, h.config,
    (l.table.entries_cycle _).trans h.entries, (l.table.latency_cycle _).trans h.latency⟩
  show (⟨(l.table.cycle (sent + delay)).port.requests,
    (l.table.cycle (sent + delay)).port.responses⟩ : Lookup.Link) = _
  rw [RangeTable.requests_cycle, RangeTable.responses_cycle, hdrain, h.latency, h.table]
  simp only [List.map_cons, List.map_nil, hanswer]
  rfl

/-- The answer of the table reaches the shared cache. -/
theorem Carries.cycleL2_fill
    (h : l.Carries c resolver k earlier w
      (.found req (req.answer (c.answerFor req.bufferId)) delay sent)) :
    (l.cycleL2 (sent + delay)).Carries c resolver k earlier w
      { port := ({} : Lookup.Link).respond (req.answer (c.answerFor req.bufferId))
          c.l2.hitLatency.toNat (sent + delay) } := by
  have hpop : l.table.port.responses.pop? (sent + delay)
      = some (⟨req.answer (c.answerFor req.bufferId), sent, sent + delay⟩, {}) := by
    rw [h.table]
    exact Port.pop?_send_self _ delay sent
  have hnone : l.l2.port.requests.pop? (sent + delay) = none := by
    rw [h.port]
    rfl
  rw [cycleL2, RangeCache.cycle_of_response hpop hnone h.misses]
  refine ⟨h.core, h.link, ?_, rfl, ?_, fun _ hnone => absurd hnone (Option.not_mem_none _),
    h.knows.keep (c := l.l2.countWaiting) rfl, ?_, h.entries, h.latency⟩
  · show l.l2.port.respond _ l.l2.config.hitLatency.toNat _ = _
    rw [h.port, h.config]
    rfl
  · show (⟨l.table.port.requests, {}⟩ : Lookup.Link) = {}
    rw [h.table]
    rfl
  · show (l.l2.countWaiting.keep _).config = _
    rw [RangeCache.config_keep]
    exact h.config

/-! ## The cache of the core -/

/-- The cache of the core asks. -/
theorem Carries.cycleL1_miss {leg : Leg} {inside : BufferId → Bool} {id : BufferId}
    (h : l.Carries c resolver k earlier { asked := [leg], held := inside } { held := shared })
    (now : Nat) (hdue : leg.sent + 1 ≤ now)
    (hconcerns : leg.trace.concerns resolver.resolve id = true) (hinside : inside id = false) :
    ∃ req : Request, req.bufferId = id ∧
      (l.cycleL1 now).Carries c resolver k earlier (.away leg.trace req inside)
        { link := ({} : Lookup.Link).request req c.l1.forwardingLatency.toNat now,
          held := shared } := by
  have hnone : l.link.responses.pop? now = none := by
    rw [h.link]
    rfl
  obtain ⟨req, hid, hcore, hlink⟩ := h.core.miss hnone rfl hdue rfl hconcerns hinside
  refine ⟨req, hid, hcore, ?_, h.port, h.misses, h.table, h.held, h.knows, h.config, h.entries,
    h.latency⟩
  rw [cycleL1, hlink, h.link]

/-- The answer reaches the cache of the core. -/
theorem Carries.cycleL1_fill {trace : Trace} {inside : BufferId → Bool}
    (h : l.Carries c resolver k earlier (.away trace req inside)
      (.returning (req.answer (c.answerFor req.bufferId)) delay sent)) :
    ∃ inside', (l.cycleL1 (sent + delay)).Carries c resolver k earlier
      { answered := [⟨trace, sent + delay⟩], held := inside' } {} := by
  have hpop : l.link.responses.pop? (sent + delay)
      = some (⟨req.answer (c.answerFor req.bufferId), sent, sent + delay⟩, {}) := by
    rw [h.link]
    exact Port.pop?_send_self _ delay sent
  obtain ⟨inside', hcore, hlink⟩ := h.core.fill hpop rfl rfl rfl
  refine ⟨inside', hcore, ?_, h.port, h.misses, h.table, h.held, h.knows, h.config, h.entries,
    h.latency⟩
  rw [cycleL1, hlink, h.link]
  rfl

/-! ## The way of a lookup -/

/-- The answer has come, and the trace is about to be judged. -/
def Answered (c : Config) (resolver : Resolver) (k : Nat) (earlier : List Verdict) (trace : Trace)
    (sent now : Nat) (l : Lane) : Prop :=
  now = sent + 1 ∧ ∃ inside,
    l.Carries c resolver k earlier { answered := [⟨trace, sent⟩], held := inside } {}

variable {trace : Trace} {inside : BufferId → Bool}

/-- A core that waits for an answer does so until something is visible below. -/
theorem Waits.leads_away {due : Nat} {Q : Nat → Lane → Prop} (hc : c.Accepted)
    (hquiet : ∀ now < due, f.Quiet c now)
    (hact : ∀ l : Lane, l.Carries c resolver k earlier (.away trace req inside) f →
      Q (due + 1) (l.cycle c k due)) :
    LeadsTo c k (Waits c resolver k earlier (.away trace req inside) f due) Q :=
  Waits.leads hc rfl (fun now hlate => ⟨hquiet now hlate, rfl⟩) rfl rfl hact

/-- The core goes on waiting. -/
theorem Carries.above_away (h : l.Carries c resolver k earlier (.away trace req inside) f)
    (hc : c.Accepted) (now : Nat) :
    ((l.check now).exchange now).Carries c resolver k earlier (.away trace req inside) f :=
  h.above hc (List.forall_mem_nil _) now

theorem Carries.cycleL1_away (h : l.Carries c resolver k earlier (.away trace req inside) f)
    (now : Nat) (hanswered : f.link.responses.pop? now = none) :
    (l.cycleL1 now).Carries c resolver k earlier (.away trace req inside) f :=
  h.cycleL1_of_idle now hanswered (List.forall_mem_nil _)

/-- The shared cache answers, if it holds the entry. -/
theorem hit_leads (hc : c.Accepted) {q : Request} (hshared : shared q.bufferId = true) :
    LeadsTo c k
      (Waits c resolver k earlier (.away trace req inside) (.passed q delay sent shared)
        (sent + delay))
      (Waits c resolver k earlier (.away trace req inside)
        (.answering c (q.answer (c.answerFor q.bufferId)) c.l2.hitLatency.toNat (sent + delay))
        (sent + delay + c.l2.hitLatency.toNat)) := by
  have hlatency := toNat_pos_of_ne_zero hc.l2.hitLatency
  refine Waits.leads_away hc (fun now hlate => ?_) fun l h => ⟨by omega, ?_⟩
  · exact ⟨rfl, rfl, Port.pop?_send_of_lt hlate, rfl, rfl, rfl, fun _ => ⟨rfl, rfl⟩⟩
  · have htable := h.cycleTable_of_idle (sent + delay) rfl
    have hl2 := htable.cycleL2_hit hshared
    have hl1 := hl2.cycleL1_away (sent + delay) rfl
    exact (hl1.relay_answering hlatency).above_away hc _

/-- It asks the table, if it does not. -/
theorem miss_leads (hc : c.Accepted) {q : Request} (hshared : shared q.bufferId = false) :
    LeadsTo c k
      (Waits c resolver k earlier (.away trace req inside) (.passed q delay sent shared)
        (sent + delay))
      (Waits c resolver k earlier (.away trace req inside)
        (.looking q c.l2.forwardingLatency.toNat (sent + delay))
        (sent + delay + c.l2.forwardingLatency.toNat)) := by
  have hforward := toNat_pos_of_ne_zero hc.l2.forwardingLatency
  refine Waits.leads_away hc (fun now hlate => ?_) fun l h => ⟨by omega, ?_⟩
  · exact ⟨rfl, rfl, Port.pop?_send_of_lt hlate, rfl, rfl, rfl, fun _ => ⟨rfl, rfl⟩⟩
  · have htable := h.cycleTable_of_idle (sent + delay) rfl
    have hl2 := htable.cycleL2_miss hshared
    have hl1 := hl2.cycleL1_away (sent + delay) rfl
    exact (hl1.relay_of_idle _ rfl rfl fun _ => ⟨rfl, rfl⟩).above_away hc _

/-- The table answers. -/
theorem found_leads (hc : c.Accepted) {q : Request} :
    LeadsTo c k
      (Waits c resolver k earlier (.away trace req inside) (.looking q delay sent) (sent + delay))
      (Waits c resolver k earlier (.away trace req inside)
        (.found q (q.answer (c.answerFor q.bufferId)) c.table.latency.toNat (sent + delay))
        (sent + delay + c.table.latency.toNat)) := by
  have hlatency := toNat_pos_of_ne_zero hc.latency
  refine Waits.leads_away hc (fun now hlate => ?_) fun l h => ⟨by omega, ?_⟩
  · exact ⟨rfl, rfl, rfl, rfl, Port.pop?_send_of_lt hlate, rfl, fun _ => ⟨rfl, rfl⟩⟩
  · have htable := h.cycleTable_found
    have hl2 := htable.cycleL2_of_idle _
      (Port.pop?_send_of_lt (Nat.lt_add_of_pos_right hlatency)) rfl
    have hl1 := hl2.cycleL1_away (sent + delay) rfl
    exact (hl1.relay_of_idle _ rfl rfl fun _ => ⟨rfl, rfl⟩).above_away hc _

/-- The shared cache answers with what the table has answered. -/
theorem fill_leads (hc : c.Accepted) {q : Request} :
    LeadsTo c k
      (Waits c resolver k earlier (.away trace req inside)
        (.found q (q.answer (c.answerFor q.bufferId)) delay sent) (sent + delay))
      (Waits c resolver k earlier (.away trace req inside)
        (.answering c (q.answer (c.answerFor q.bufferId)) c.l2.hitLatency.toNat (sent + delay))
        (sent + delay + c.l2.hitLatency.toNat)) := by
  have hlatency := toNat_pos_of_ne_zero hc.l2.hitLatency
  refine Waits.leads_away hc (fun now hlate => ?_) fun l h => ⟨by omega, ?_⟩
  · exact ⟨rfl, rfl, rfl, rfl, rfl, Port.pop?_send_of_lt hlate, fun _ => ⟨rfl, rfl⟩⟩
  · have htable := h.cycleTable_of_idle (sent + delay) rfl
    have hl2 := htable.cycleL2_fill
    have hl1 := hl2.cycleL1_away (sent + delay) rfl
    exact (hl1.relay_answering hlatency).above_away hc _

/-- **The way through the shared cache**, with or without the table. -/
theorem shared_leads (hc : c.Accepted) (q : Request) :
    LeadsTo c k
      (Waits c resolver k earlier (.away trace req inside) (.passed q delay sent shared)
        (sent + delay))
      (Waits c resolver k earlier (.away trace req inside)
        (.answering c (q.answer (c.answerFor q.bufferId)) c.l2.hitLatency.toNat
          (sent + delay + if shared q.bufferId then 0
            else c.l2.forwardingLatency.toNat + c.table.latency.toNat))
        (sent + delay + (if shared q.bufferId then 0
            else c.l2.forwardingLatency.toNat + c.table.latency.toNat)
          + c.l2.hitLatency.toNat)) := by
  rcases hshared : shared q.bufferId with _ | _
  · rw [if_neg Bool.false_ne_true, ← Nat.add_assoc]
    exact ((miss_leads hc hshared).trans (found_leads hc)).trans (fill_leads hc)
  · rw [if_pos rfl, Nat.add_zero]
    exact hit_leads hc hshared

/-- A switch with several inputs passes the question on. -/
theorem granting_leads (hc : c.Accepted) (hmany : c.cores.toNat ≠ 1) :
    LeadsTo c k
      (Waits c resolver k earlier (.away trace req inside)
        { link := ({} : Lookup.Link).request req delay sent, held := shared } (sent + delay))
      (Waits c resolver k earlier (.away trace req inside)
        (.passed (Switch.stamped (TagPacking.tagShift c.cores.toNat) (k, req))
          c.switch.delay.toNat (sent + delay) shared)
        (sent + delay + c.switch.delay.toNat)) := by
  have hdelay := toNat_pos_of_ne_zero hc.delay
  refine Waits.leads_away hc (fun now hlate => ?_) fun l h => ⟨by omega, ?_⟩
  · exact ⟨Port.pop?_send_of_lt hlate, rfl, rfl, rfl, rfl, rfl, fun hone => absurd hone hmany⟩
  · have hbelow := h.below_of_idle (sent + delay) rfl rfl rfl
    have hl1 := hbelow.cycleL1_away (sent + delay) rfl
    exact (hl1.relay_granting hmany).above_away hc _

/-- It delivers the answer. -/
theorem delivering_leads (hc : c.Accepted) (hmany : c.cores.toNat ≠ 1) :
    LeadsTo c k
      (Waits c resolver k earlier (.away trace req inside)
        { port := ({} : Lookup.Link).respond rsp delay sent } (sent + delay))
      (Waits c resolver k earlier (.away trace req inside)
        (.returning { rsp with
          tag := TagPacking.unstamp (TagPacking.tagShift c.cores.toNat) rsp.tag } 1 (sent + delay))
        (sent + delay + 1)) := by
  refine Waits.leads_away hc (fun now hlate => ?_) fun l h => ⟨Nat.le_refl _, ?_⟩
  · exact ⟨rfl, rfl, rfl, Port.pop?_send_of_lt hlate, rfl, rfl, fun hone => absurd hone hmany⟩
  · have hbelow := h.below_of_idle (sent + delay) rfl rfl rfl
    have hl1 := hbelow.cycleL1_away (sent + delay) rfl
    exact (hl1.relay_delivering hmany).above_away hc _

/-- The answer reaches the cache of the core. -/
theorem returning_leads (hc : c.Accepted) :
    LeadsTo c k
      (Waits c resolver k earlier (.away trace req inside)
        (.returning (req.answer (c.answerFor req.bufferId)) delay sent) (sent + delay))
      (Answered c resolver k earlier trace (sent + delay)) := by
  have hlatency := toNat_pos_of_ne_zero hc.l1.hitLatency
  refine Waits.leads_away hc (fun now hlate => ?_) fun l h => ⟨rfl, ?_⟩
  · exact ⟨rfl, Port.pop?_send_of_lt hlate, rfl, rfl, rfl, rfl, fun _ => ⟨rfl, rfl⟩⟩
  · have hbelow := h.below_of_idle (sent + delay) rfl rfl rfl
    obtain ⟨inside', hl1⟩ := hbelow.cycleL1_fill
    have hrelay := hl1.relay_of_idle (sent + delay) rfl rfl fun _ => ⟨rfl, rfl⟩
    have habove := hrelay.above hc (List.forall_mem_nil _) (sent + delay)
    -- the answer is not judged in the cycle in which it comes
    rw [Course.work_of_answered_of_lt (Nat.lt_add_of_pos_right hlatency)] at habove
    exact ⟨inside', habove⟩

/-- **The way of a lookup from the cache of a core and back.** -/
theorem away_leads (hc : c.Accepted) (hfit : c.TagsFit) (hk : k < c.cores.toNat)
    (htag : req.tag.toNat < c.checker.queueSize.toNat) :
    LeadsTo c k
      (Waits c resolver k earlier (.away trace req inside) (.asking c req delay sent shared)
        (sent + delay))
      (Answered c resolver k earlier trace
        (sent + delay + (if shared req.bufferId then 0
            else c.l2.forwardingLatency.toNat + c.table.latency.toNat)
          + c.l2.hitLatency.toNat
          + if c.cores.toNat = 1 then 0 else c.switch.delay.toNat + 1)) := by
  by_cases hone : c.cores.toNat = 1
  · have hthrough := @shared_leads c resolver k earlier req delay sent shared trace inside hc req
    rw [Flight.answering, if_pos hone] at hthrough
    rw [Flight.asking, if_pos hone, if_pos hone, Nat.add_zero]
    exact hthrough.trans (returning_leads hc)
  · generalize hstamped : Switch.stamped (TagPacking.tagShift c.cores.toNat) (k, req) = q
    have hbuffer : q.bufferId = req.bufferId := by rw [← hstamped]; rfl
    -- the tag loses nothing on its way
    have hunstamped : { q.answer (c.answerFor q.bufferId) with
        tag := TagPacking.unstamp (TagPacking.tagShift c.cores.toNat)
          (q.answer (c.answerFor q.bufferId)).tag } = req.answer (c.answerFor req.bufferId) := by
      have hshift : TagPacking.tagShift c.cores.toNat < 32 :=
        Nat.lt_of_le_of_lt (TagPacking.tagShift_le_five hc.le) (by decide)
      have hroom : req.tag.toNat * 2 ^ TagPacking.tagShift c.cores.toNat < 2 ^ 32 :=
        Nat.lt_of_lt_of_le (Nat.mul_lt_mul_of_pos_right htag (Nat.two_pow_pos _)) hfit
      have htag' := TagPacking.unstamp_stamp hshift (TagPacking.lt_two_pow_tagShift hk) hroom
      rw [← hstamped]
      simp only [Switch.stamped, Request.answer, htag']
    have hgranted := @granting_leads c resolver k earlier req delay sent shared trace inside hc hone
    have hthrough := @shared_leads c resolver k earlier req c.switch.delay.toNat (sent + delay)
      shared trace inside hc q
    rw [hstamped] at hgranted
    rw [Flight.answering, if_neg hone] at hthrough
    have hdelivered := (hgranted.trans hthrough).trans (delivering_leads hc hone)
    rw [hunstamped, hbuffer] at hdelivered
    have hdue : ∀ x, sent + delay + c.switch.delay.toNat + x + c.l2.hitLatency.toNat + 1
        = sent + delay + x + c.l2.hitLatency.toNat + (c.switch.delay.toNat + 1) := by
      intro x
      omega
    have hreturned := hdelivered.trans (returning_leads hc)
    rw [hdue] at hreturned
    rw [Flight.asking, if_neg hone, if_neg hone]
    exact hreturned

/-! ## Before and after -/

variable {start : Nat} {id : BufferId}

/-- The checker is given the trace, and asks the cache. -/
theorem asked_leads (hc : c.Accepted) (hconcerns : trace.concerns resolver.resolve id = true) :
    LeadsTo c k
      (fun now l => now = start ∧ l.Carries c resolver k earlier
        { queue := [trace], held := inside } { held := shared })
      (fun now l => now = start + 2 ∧ l.Carries c resolver k earlier
        { asked := [⟨trace, start + 1⟩], held := inside } { held := shared }) := by
  have hfed : LeadsTo c k
      (fun now l => now = start ∧ l.Carries c resolver k earlier
        { queue := [trace], held := inside } { held := shared })
      (fun now l => now = start + 1 ∧ l.Carries c resolver k earlier
        { input := [⟨trace, start⟩], held := inside } { held := shared }) := by
    refine LeadsTo.of_cycle ?_
    rintro now l ⟨rfl, h⟩
    exact ⟨h.busy, rfl, h.cycle hc (Flight.quiet_default c now shared) (List.forall_mem_nil _)
      (List.forall_mem_nil _) (Course.work_of_queue (toNat_pos_of_ne_zero hc.queueSize))⟩
  refine hfed.trans (LeadsTo.of_cycle ?_)
  rintro now l ⟨rfl, h⟩
  have hknown : ∀ leg ∈ [(⟨trace, start⟩ : Leg)], ∃ id,
      leg.trace.concerns resolver.resolve id = true := by
    intro leg hleg
    rw [List.mem_singleton.mp hleg]
    exact ⟨id, hconcerns⟩
  exact ⟨h.busy, rfl, h.cycle hc (Flight.quiet_default c (start + 1) shared) (List.forall_mem_nil _)
    hknown Course.work_of_input⟩

/-- The cache of the core passes the lookup on. -/
theorem asking_leads (hc : c.Accepted) (hconcerns : trace.concerns resolver.resolve id = true)
    (hinside : inside id = false) :
    LeadsTo c k
      (fun now l => now = start + 2 ∧ l.Carries c resolver k earlier
        { asked := [⟨trace, start + 1⟩], held := inside } { held := shared })
      (fun now l => ∃ req : Request, req.bufferId = id ∧
        req.tag.toNat < c.checker.queueSize.toNat ∧
        Waits c resolver k earlier (.away trace req inside)
          (.asking c req c.l1.forwardingLatency.toNat (start + 2) shared)
          (start + 2 + c.l1.forwardingLatency.toNat) now l) := by
  have hlatency := toNat_pos_of_ne_zero hc.l1.forwardingLatency
  refine LeadsTo.of_cycle ?_
  rintro now l ⟨rfl, h⟩
  refine ⟨h.busy, ?_⟩
  have hbelow := h.below_of_idle (start + 2) rfl rfl rfl
  obtain ⟨req, hid, hl1⟩ :=
    hbelow.cycleL1_miss (start + 2) (Nat.le_refl _) hconcerns hinside
  have habove := (hl1.relay_asking hlatency).above_away hc (start + 2)
  exact ⟨req, hid, habove.core.tag_lt rfl, by omega, habove⟩

/-- The checker judges the trace and lets it go. -/
theorem judged_leads (hc : c.Accepted) :
    LeadsTo c k (Answered c resolver k earlier trace sent)
      (fun now l => now = sent + c.l1.hitLatency.toNat + 2 ∧ ∃ inside,
        l.Carries c resolver k earlier
          { gone := [⟨trace, sent + c.l1.hitLatency.toNat⟩], held := inside } {}) := by
  have hlatency := toNat_pos_of_ne_zero hc.l1.hitLatency
  rintro now l ⟨rfl, inside, h⟩
  have hjudged : LeadsTo c k
      (Waits c resolver k earlier { answered := [⟨trace, sent⟩], held := inside } {}
        (sent + c.l1.hitLatency.toNat))
      (fun now l => now = sent + c.l1.hitLatency.toNat + 1 ∧ l.Carries c resolver k earlier
        { output := [⟨trace, sent + c.l1.hitLatency.toNat⟩], held := inside } {}) := by
    refine Waits.leads hc rfl (fun now hlate => ⟨Flight.quiet_default c now none, ?_⟩) rfl rfl
      fun l h => ⟨rfl, ?_⟩
    · exact Course.work_of_answered_of_lt hlate
    · exact h.cycle hc (Flight.quiet_default c _ none) (List.forall_mem_nil _)
        (List.forall_mem_nil _) Course.work_of_answered
  refine (hjudged.trans (LeadsTo.of_cycle ?_)) _ l ⟨by omega, h⟩
  rintro now l ⟨rfl, h⟩
  exact ⟨h.busy, rfl, inside, h.cycle hc (Flight.quiet_default c _ none) (List.forall_mem_nil _)
    (List.forall_mem_nil _) Course.work_of_output⟩

/-- The cache of the core answers, if it holds the entry. -/
theorem holding_leads (hc : c.Accepted) (hconcerns : trace.concerns resolver.resolve id = true)
    (hinside : inside id = true) :
    LeadsTo c k
      (fun now l => now = start + 2 ∧ l.Carries c resolver k earlier
        { asked := [⟨trace, start + 1⟩], held := inside } { held := shared })
      (Answered c resolver k earlier trace (start + 2)) := by
  have hlatency := toNat_pos_of_ne_zero hc.l1.hitLatency
  refine LeadsTo.of_cycle ?_
  rintro now l ⟨rfl, h⟩
  have hheld : ∀ leg ∈ [(⟨trace, start + 1⟩ : Leg)], ∃ id,
      leg.trace.concerns resolver.resolve id = true ∧ inside id = true := by
    intro leg hleg
    rw [List.mem_singleton.mp hleg]
    exact ⟨id, hconcerns, hinside⟩
  have hnext : Course.work c (start + 2)
      (Course.hit (start + 2) { asked := [⟨trace, start + 1⟩], held := inside })
      = { answered := [⟨trace, start + 2⟩], held := inside } := by
    rw [Course.hit_of_asked, Course.work_of_answered_of_lt (Nat.lt_add_of_pos_right hlatency)]
  have hcycle := h.cycle hc (Flight.quiet_default c (start + 2) shared) hheld
    (List.forall_mem_nil _) hnext
  exact ⟨h.busy, rfl, inside, hcycle.forget⟩

/-- **A trace that a core is given** is judged when its lookup has been answered, by its cache or
after the way of a lookup. -/
theorem lookup_leads (hc : c.Accepted) (hfit : c.TagsFit) (hk : k < c.cores.toNat)
    (hconcerns : trace.concerns resolver.resolve id = true) :
    LeadsTo c k
      (fun now l => now = start ∧ l.Carries c resolver k earlier
        { queue := [trace], held := inside } { held := shared })
      (fun now l => now = c.lookupCycle start (inside id) (shared id) + 2 ∧ ∃ inside',
        l.Carries c resolver k earlier
          { gone := [⟨trace, c.lookupCycle start (inside id) (shared id)⟩], held := inside' }
          {}) := by
  rcases hinside : inside id with _ | _
  · intro now l hstart
    obtain ⟨now₁, l₁, hsteps₁, req, rfl, htag, hasking⟩ :=
      ((asked_leads hc hconcerns).trans (asking_leads hc hconcerns hinside)) now l hstart
    obtain ⟨now₂, l₂, hsteps₂, hanswered⟩ := away_leads hc hfit hk htag now₁ l₁ hasking
    obtain ⟨now₃, l₃, hsteps₃, hjudged⟩ := judged_leads hc now₂ l₂ hanswered
    refine ⟨now₃, l₃, (hsteps₁.trans hsteps₂).trans hsteps₃, ?_⟩
    have hcycle : c.lookupCycle start false (shared req.bufferId)
        = start + 2 + c.l1.forwardingLatency.toNat
          + (if shared req.bufferId then 0
              else c.l2.forwardingLatency.toNat + c.table.latency.toNat)
          + c.l2.hitLatency.toNat + (if c.cores.toNat = 1 then 0 else c.switch.delay.toNat + 1)
          + c.l1.hitLatency.toNat := by
      rw [Config.lookupCycle, if_neg Bool.false_ne_true]
      omega
    rw [hcycle]
    exact hjudged
  · rw [Config.lookupCycle, if_pos rfl]
    exact ((asked_leads hc hconcerns).trans (holding_leads hc hconcerns hinside)).trans
      (judged_leads hc)

end Lane

namespace Drive

variable {c : Config} {m : Machine} {resolver : Resolver}

/-- **The latency of a lookup.**  A machine with nothing left to do, whatever was asked of it
before, is given a single trace whose address belongs to a buffer.  A run that may go on long enough
judges this trace and nothing else, in the cycle that the latencies of the parts add up to that its
lookup passes, and the machine has nothing left to do two cycles later.  It does not matter whether
the buffer is one of the table. -/
theorem lookup_latency (hnew : Machine.new c = .ok m)
    (hresolver : Resolver.ofConfig c = .ok resolver) (hfit : c.TagsFit) (calls : List Call)
    (hidle : ((start m).after calls).machine.busy = false) {trace : Trace} {core : Core}
    (hcore : ((start m).after calls).machine.cores[trace.coreId.toNat]? = some core)
    {access : MemAccess} (haccess : trace.firstAccess? = some access) {id : BufferId}
    (hid : resolver.resolve access.addr = some id) :
    let before := ((start m).after calls).machine
    let judged :=
      c.lookupCycle before.clock (core.l1.lines.contains id) (before.l2.lines.contains id)
    ∃ done, ((start m).after (calls ++ [.push trace])).machine.Yields (judged + 2)
        trace.coreId.toNat [{ c.verdictOf trace access.addr id with cycle := judged }] done ∧
      done.clock = judged + 2 := by
  intro before judged
  have hc := (Machine.of_new hnew).1
  have hk : trace.coreId.toNat < c.cores.toNat := by
    rw [← (regular hnew hresolver hfit calls).shaped.length]
    exact (List.getElem?_eq_some_iff.mp hcore).1
  have hconcerns : trace.concerns resolver.resolve id = true := by
    rw [Trace.concerns, haccess, Option.any_some, hid, beq_self_eq_true]
  obtain ⟨other, l, hother, hcarries, hyields⟩ := yields_of_idle hnew hresolver hfit calls hidle hk
    fun _ htrace => congrArg (·.coreId.toNat) (List.mem_singleton.mp htrace)
  cases hcore.symm.trans hother
  obtain ⟨_, l', hsteps, rfl, inside, hgone⟩ :=
    Lane.lookup_leads hc hfit hk hconcerns _ l ⟨rfl, hcarries⟩
  refine hyields hsteps hgone.busy ?_
  have hverdict : c.verdictAt? resolver.resolve ⟨trace, judged⟩
      = some { c.verdictOf trace access.addr id with cycle := judged } := by
    rw [Config.verdictAt?, Config.verdict?, haccess, Option.bind_some, hid, Option.map_some,
      Option.map_some]
  rw [hgone.core.verdicts]
  show _ ++ List.filterMap _ [(⟨trace, judged⟩ : Leg)] = _
  rw [List.filterMap_cons_some hverdict, List.filterMap_nil]

/-- A load that misses both caches of a machine with a single core.  With two cores, a load of one
of them brings the entry into the shared cache, and then the other core misses in its own cache
only. -/
theorem lookup_latency_two_loads :
    ∃ m done m' v done', Machine.new {} = .ok m ∧ Machine.new { cores := 2 } = .ok m' ∧
      ((start m).after [.push (.load 1 0xFEFFFFC8 4)]).machine.Yields 15 0
        [⟨13, 1, 0xFEFFFFC8, 1, 0xFEFFFFC8, 0x28, false, true, true, true, true, none⟩] done ∧
      ((start m').after [.push (.load 1 0xFEFFFFC8 4), .run 100,
        .push { Trace.load 2 0xFEFFFFC8 4 with coreId := 1 }]).machine.Yields 26 1 [v] done' ∧
      v.cycle = 24 := by
  obtain ⟨done, hdone, -⟩ := @lookup_latency {} _ _ rfl rfl (by decide) [] (by decide +kernel)
    (.load 1 0xFEFFFFC8 4) _ rfl _ rfl 1 rfl
  obtain ⟨done', hdone', -⟩ := @lookup_latency { cores := 2 } _ _ rfl rfl (by decide)
    [.push (.load 1 0xFEFFFFC8 4), .run 100] (by decide +kernel)
    { Trace.load 2 0xFEFFFFC8 4 with coreId := 1 } _
    (List.getElem?_eq_getElem (by decide +kernel)) _ rfl 1 rfl
  exact ⟨_, done, _, _, done', rfl, rfl, hdone, hdone', by decide +kernel⟩

end Drive

end BoundsCheck
