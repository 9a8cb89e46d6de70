import BoundsCheck.Proofs.Checking
import BoundsCheck.Proofs.Counting
import BoundsCheck.Proofs.Work

/-!
# Tallies

Each component counts for itself what it takes in and what it passes on.  What one of them passes on
the next one takes in later, so that their counters differ by what is under way between them.  A
component that works changes its counters and its links together, and so the difference stays right.

* `Checker.Tallied` — the counters of a checker agree with each other.
* `Checker.Counts`, `Switch.Counts` — what a component counts is what it does to its links.
* `Checker.Tallied.moves`, `Checker.counts_of_moves` — a checker counts all its moves.
* `RangeCache.Tallied` — the counters of a cache agree with those above and below.
* `RangeCache.Tallied.cycle`, `RangeTable.counts_cycle`, `Switch.Shape.counts_cycle` — a cycle of a
  cache, of the table and of a switch.
-/

set_option autoImplicit false

namespace BoundsCheck

open Lookup

/-! ## Lengths of ports -/

theorem Port.length_send {α : Type} (item : α) (delay now : Nat) (p : Port α) :
    (p.send item delay now).length = p.length + 1 := by
  rw [length, send, List.length_append, List.length_singleton, length]

theorem Port.length_sendAll {α : Type} (items : List α) (delay now : Nat) (p : Port α) :
    (p.sendAll items delay now).length = p.length + items.length := by
  rw [length, sendAll, List.length_append, List.length_map, length]

theorem Port.length_moveInto {α : Type} (source target : Port α) :
    (source.moveInto target).1.length = 0 ∧
      (source.moveInto target).2.length = target.length + source.length :=
  ⟨rfl, List.length_append⟩

/-! ## Checkers -/

theorem Stats.Violations.total_bump (v : Violations) (kind : Violation) (n : Nat) :
    (v.bump kind n).total = v.total + n := by
  cases kind with
  | outOfBounds =>
    show v.outOfBounds.getD 0 + n + v.writeToReadOnly.getD 0 = _
    rw [total]
    omega
  | writeToReadOnly =>
    show v.outOfBounds.getD 0 + (v.writeToReadOnly.getD 0 + n) = _
    rw [total]
    omega

/-- There is a reason for every verdict that is not valid. -/
theorem Verdict.isSome_reason_judge (addr : Address) (id : BufferId) (isStore : Bool)
    (entry : RangeEntry) (now : Nat) (uuid : Uuid)
    (h : (judge addr id isStore entry now uuid).valid = false) :
    (judge addr id isStore entry now uuid).reason.isSome = true := by
  change (entry.contains addr && !(entry.readOnly && isStore)) = false at h
  show (objection? (entry.contains addr) (!(entry.readOnly && isStore))).isSome = true
  rw [Bool.and_eq_false_iff] at h
  rw [objection?]
  split
  · rfl
  · rename_i hin
    rw [Bool.not_eq_true', Bool.not_eq_false] at hin
    rw [h.resolve_left (by rw [hin]; decide)]
    rfl

namespace Checker

/-- A verdict is counted once, and nothing else is. -/
theorem countVerdict_eq {v : Verdict} (h : v.valid = false → v.reason.isSome = true)
    (s : Stats.Checker) :
    ∃ valid untracked violations, countVerdict v s = { s with valid, untracked, violations } ∧
      valid + untracked + violations.total = s.valid + s.untracked + s.violations.total + 1 := by
  rw [countVerdict]
  split
  · exact ⟨s.valid, s.untracked + 1, s.violations, rfl, by omega⟩
  · split
    · exact ⟨s.valid + 1, s.untracked, s.violations, rfl, by omega⟩
    · rename_i hvalid
      obtain ⟨reason, hreason⟩ := Option.isSome_iff_exists.mp (h (Bool.not_eq_true _ ▸ hvalid))
      rw [hreason]
      refine ⟨s.valid, s.untracked, s.violations.bump reason 1, rfl, ?_⟩
      rw [Stats.Violations.total_bump]
      omega

/-- An answer is counted as such, as a trace let go and as one verdict. -/
theorem stats_settle (now : Nat) (rsp : Response) (trace : Trace) (c : Checker) :
    ∃ valid untracked violations, (c.settle now rsp trace).stats = { c.stats with
        responses := c.stats.responses + 1, emitted := c.stats.emitted + 1, valid, untracked,
        violations } ∧
      valid + untracked + violations.total
        = c.stats.valid + c.stats.untracked + c.stats.violations.total + 1 := by
  obtain ⟨valid, untracked, violations, hstats, htotal⟩ := countVerdict_eq
    (v := verdictOf now rsp trace) (Verdict.isSome_reason_judge _ _ _ _ _ _) c.countResponse.stats
  refine ⟨valid, untracked, violations, ?_, htotal⟩
  show ({ countVerdict (verdictOf now rsp trace) c.countResponse.stats with
    emitted := (countVerdict (verdictOf now rsp trace) c.countResponse.stats).emitted + 1 }
      : Stats.Checker) = _
  rw [hstats]
  rfl

/-- The counters of a checker agree with each other, with its slots and with its verdicts, some of
which were taken out before. -/
structure Tallied (taken : Nat) (c : Checker) : Prop where
  /-- Each trace taken in was looked up or belongs to no buffer. -/
  traces : c.stats.traces = c.stats.lookups + c.stats.unresolved
  /-- Each lookup was answered or waits for its answer. -/
  lookups : c.stats.lookups = c.stats.responses + c.inFlight
  /-- Each answer brought a verdict of one kind. -/
  responses : c.stats.responses
    = c.stats.valid + c.stats.untracked + c.stats.violations.total
  /-- Each answer brought a verdict that was noted. -/
  recorded : c.stats.responses = taken + c.verdicts.length
  /-- If traces of no buffer vanish, each trace let go was answered. -/
  dropped : c.config.unresolved = .drop → c.stats.emitted = c.stats.responses
  /-- If they leave unchecked, they are let go as well. -/
  forwarded : c.config.unresolved = .forward →
    c.stats.emitted = c.stats.responses + c.stats.unresolved

variable {taken now : Nat} {c c' : Checker} {l1 l1' : Lookup.Link} {rest : Multiset Request}

theorem Tallied.settle (h : c.Tallied taken) (hs : c.slots.WellFormed) {rsp : Response}
    {pending : PendingTrace} (hget : c.slots.get? rsp.tag = some pending) :
    (c.settle now rsp pending.trace).Tallied taken := by
  obtain ⟨valid, untracked, violations, hsettle, htotal⟩ := c.stats_settle now rsp pending.trace
  have hused := (hs.without hget).2.2.1
  obtain ⟨htraces, hlookups, hresponses, hrecorded, hdropped, hforwarded⟩ := h
  refine ⟨?_, ?_, ?_, ?_, fun hdrop => ?_, fun hforward => ?_⟩
  all_goals rw [hsettle]
  · exact htraces
  · show c.stats.lookups = c.stats.responses + 1 + (c.slots.without rsp.tag).used
    rw [inFlight] at hlookups
    omega
  · show c.stats.responses + 1 = valid + untracked + violations.total
    omega
  · show c.stats.responses + 1 = taken + (c.verdicts ++ [_]).length
    rw [List.length_append, List.length_singleton]
    omega
  · exact congrArg (· + 1) (hdropped hdrop)
  · show c.stats.emitted + 1 = c.stats.responses + 1 + c.stats.unresolved
    rw [hforwarded hforward]
    omega

theorem Tallied.unresolved (h : c.Tallied taken) (others : Port Trace) (trace : Trace) :
    ({ c with input := others }.unresolved now trace).Tallied taken := by
  obtain ⟨htraces, hlookups, hresponses, hrecorded, hdropped, hforwarded⟩ := h
  have hcount : c.stats.traces + 1 = c.stats.lookups + (c.stats.unresolved + 1) := by omega
  rw [Checker.unresolved]
  split
  · rename_i hdrop
    change c.config.unresolved = .drop at hdrop
    exact ⟨hcount, hlookups, hresponses, hrecorded, hdropped,
      fun hforward => absurd (hdrop.symm.trans hforward) (by decide)⟩
  · rename_i hforward
    change c.config.unresolved = .forward at hforward
    refine ⟨hcount, hlookups, hresponses, hrecorded,
      fun hdrop => absurd (hforward.symm.trans hdrop) (by decide), fun _ => ?_⟩
    show c.stats.emitted + 1 = c.stats.responses + (c.stats.unresolved + 1)
    rw [hforwarded hforward, Nat.add_assoc]

theorem Tallied.asked (h : c.Tallied taken) (hs : c.slots.WellFormed) {tag : Tag}
    {slots : SlotTable PendingTrace} {pending : PendingTrace}
    (halloc : c.slots.allocate pending = .ok (tag, slots)) (others : Port Trace) :
    (c.asked slots others).Tallied taken := by
  obtain ⟨htraces, hlookups, hresponses, hrecorded, hdropped, hforwarded⟩ := h
  have hused := (hs.of_allocate halloc).2.2.1
  refine ⟨?_, ?_, hresponses, hrecorded, hdropped, hforwarded⟩
  · show c.stats.traces + 1 = c.stats.lookups + 1 + c.stats.unresolved
    omega
  · show c.stats.lookups + 1 = c.stats.responses + slots.used
    rw [inFlight] at hlookups
    omega

/-- **Every move of a checker keeps its tally.** -/
theorem Tallied.move (h : c.Tallied taken) (hs : c.slots.WellFormed)
    (hmove : Move now (c, l1) (c', l1')) : c'.Tallied taken := by
  cases hmove with
  | settle _ hget _ => exact h.settle hs hget
  | stall _ _ =>
    exact ⟨h.traces, h.lookups, h.responses, h.recorded, h.dropped, h.forwarded⟩
  | unresolved _ _ _ => exact h.unresolved _ _
  | ask _ _ _ halloc => exact h.asked hs halloc _

/-- So do several moves. -/
theorem Tallied.moves (h : c.Tallied taken) (hs : c.Sound (underway l1 + rest))
    {next : Checker × Lookup.Link}
    (hmoves : Relation.ReflTransGen (Move now) (c, l1) next) : next.1.Tallied taken := by
  induction hmoves with
  | refl => exact h
  | tail hreach hmove ih => exact ih.move (hs.moves hreach).slots hmove

theorem Tallied.take (h : c.Tallied taken) :
    c.dropVerdicts.Tallied (taken + c.verdicts.length) :=
  ⟨h.traces, h.lookups, h.responses, h.recorded, h.dropped, h.forwarded⟩

theorem tallied_reset (c : Checker) : c.reset.Tallied 0 :=
  ⟨rfl, rfl, rfl, rfl, fun _ => rfl, fun _ => rfl⟩

/-- What a checker counts is what it does to its ports and to the link of its cache. -/
structure Counts (before after : Checker × Lookup.Link) : Prop where
  /-- Each lookup it counts is a request. -/
  asked : after.1.stats.lookups + before.2.requests.length
    = before.1.stats.lookups + after.2.requests.length
  /-- Each trace it counts has been taken in. -/
  taken : after.1.stats.traces + after.1.input.length
    = before.1.stats.traces + before.1.input.length
  /-- Each trace it counts as let go is under way. -/
  emitted : after.1.stats.emitted + before.1.output.length
    = before.1.stats.emitted + after.1.output.length

theorem Move.counts (hmove : Move now (c, l1) (c', l1')) : Counts (c, l1) (c', l1') := by
  cases hmove with
  | @settle _ _ packet _ pending _ _ _ =>
    obtain ⟨_, _, _, hstats, -⟩ := c.stats_settle now packet.item pending.trace
    refine ⟨?_, ?_, ?_⟩
    all_goals rw [hstats]
    · rfl
    · show c.stats.emitted + 1 + c.output.length
        = c.stats.emitted + (c.output.send pending.trace 1 now).length
      rw [Port.length_send]
      omega
  | stall _ _ => exact ⟨rfl, rfl, rfl⟩
  | @unresolved _ _ packet others _ hpop _ _ =>
    have hlength := Port.length_of_pop? hpop
    have htaken : c.stats.traces + 1 + others.length = c.stats.traces + c.input.length := by omega
    rw [Checker.unresolved]
    split
    · exact ⟨rfl, htaken, rfl⟩
    · refine ⟨rfl, htaken, ?_⟩
      show c.stats.emitted + 1 + c.output.length
        = c.stats.emitted + (c.output.send packet.item 1 now).length
      rw [Port.length_send]
      omega
  | @ask _ _ packet others access id tag _ hpop _ _ _ =>
    have hlength := Port.length_of_pop? hpop
    refine ⟨?_, ?_, rfl⟩
    · show c.stats.lookups + 1 + l1.requests.length
        = c.stats.lookups + (l1.requests.send (requestFor packet.item access.addr id tag) 1 now).length
      rw [Port.length_send]
      omega
    · show c.stats.traces + 1 + others.length = c.stats.traces + c.input.length
      omega

theorem Counts.trans {first second third : Checker × Lookup.Link} (h : Counts first second)
    (h' : Counts second third) : Counts first third := by
  obtain ⟨hasked, htaken, hemitted⟩ := h
  obtain ⟨hasked', htaken', hemitted'⟩ := h'
  exact ⟨by omega, by omega, by omega⟩

/-- **All that a checker does is counted.** -/
theorem counts_of_moves {before after : Checker × Lookup.Link}
    (hmoves : Relation.ReflTransGen (Move now) before after) : Counts before after := by
  induction hmoves with
  | refl => exact ⟨rfl, rfl, rfl⟩
  | tail _ hmove ih => exact ih.trans hmove.counts

end Checker

/-! ## Caches -/

namespace RangeCache

variable {asked taken returned now : Nat} {lower : Lookup.Link} {c : RangeCache}

/-- The counters of a cache agree with each other, with what the component above has asked, and with
what the component below has taken and returned. -/
structure Tallied (asked taken returned : Nat) (lower : Lookup.Link) (c : RangeCache) : Prop where
  /-- No buffer is held twice or awaited although it is held. -/
  tidy : c.Tidy
  /-- Each lookup asked for was read or is on its way. -/
  reads : c.stats.reads + c.port.requests.length = asked
  /-- Each miss was taken by the component below or is on its way. -/
  passed : c.stats.readMisses = taken + lower.requests.length
  /-- Each answer returned from below was taken in or is on its way. -/
  filled : ∃ filled, c.Counted filled ∧ returned = filled.length + lower.responses.length

/-- A cache takes lookups in from above alone. -/
theorem responses_takeRequest (now : Nat) (lower : Lookup.Link) (c : RangeCache) :
    (c.takeRequest now lower).2.responses = lower.responses := by
  rcases hpop : c.port.requests.pop? now with _ | ⟨packet, rest⟩
  · rw [takeRequest, hpop]
  · rw [takeRequest_of_pop? hpop, access]
    split
    · rfl
    · split <;> rfl

/-- A cache takes answers off the link below, and does nothing else to them. -/
theorem length_received (now : Nat) (lower : Lookup.Link) (c : RangeCache) :
    lower.responses.length
      = (received now lower).length + (c.cycle now lower).2.responses.length := by
  rw [cycle_eq, responses_takeRequest, RangeCache.takeResponse, received]
  rcases hpop : lower.responses.pop? now with _ | ⟨packet, others⟩
  · exact (Nat.zero_add _).symm
  · rw [Port.length_of_pop? hpop, Nat.add_comm]
    rfl

/-- **A cycle of a cache keeps its tally**, as long as it gets no response but to the first lookups
of its misses. -/
theorem Tallied.cycle (h : c.Tallied asked taken returned lower) (hwf : c.misses.WellFormed)
    {rest : Multiset Request} (hbelow : underway lower + rest = c.misses.heads) (now : Nat) :
    (c.cycle now lower).1.Tallied asked taken returned (c.cycle now lower).2 := by
  obtain ⟨filled, hcounted, hreturned⟩ := h.filled
  obtain ⟨read, hport, hreads⟩ := requests_cycle now lower c
  obtain ⟨passed, hrequests, hmisses⟩ := forwards_cycle now lower c
  have hlength := length_received now lower c
  have hread := congrArg List.length hport
  rw [Port.length_items, List.length_append, Port.length_items] at hread
  refine ⟨h.tidy.cycle now lower, ?_, ?_, _, hcounted.cycle hwf h.tidy hbelow now, ?_⟩
  · rw [hreads, ← h.reads, hread, Nat.add_assoc]
  · rw [hmisses, h.passed, hrequests, Port.length_sendAll, Nat.add_assoc]
  · rw [hreturned, List.length_append, hlength, Nat.add_assoc]

/-- The component above asks more, or takes answers. -/
theorem Tallied.withPort (h : c.Tallied asked taken returned lower) {asked' : Nat}
    {port : Lookup.Link}
    (hasked : asked' + c.port.requests.length = asked + port.requests.length) :
    ({ c with port := port } : RangeCache).Tallied asked' taken returned lower := by
  obtain ⟨filled, hcounted, hreturned⟩ := h.filled
  have hreads := h.reads
  refine ⟨h.tidy.congr rfl rfl, ?_, h.passed, filled,
    ⟨hcounted.reads, hcounted.misses, hcounted.lines⟩, hreturned⟩
  show c.stats.reads + port.requests.length = asked'
  omega

/-- The component below takes lookups, or returns answers. -/
theorem Tallied.withLower (h : c.Tallied asked taken returned lower) {taken' returned' : Nat}
    {lower' : Lookup.Link}
    (htaken : taken' + lower'.requests.length = taken + lower.requests.length)
    (hreturned : returned' + lower.responses.length = returned + lower'.responses.length) :
    c.Tallied asked taken' returned' lower' := by
  obtain ⟨filled, hcounted, hfilled⟩ := h.filled
  exact ⟨h.tidy, h.reads, h.passed.trans htaken.symm, filled, hcounted, by omega⟩

theorem tallied_reset (c : RangeCache) : c.reset.Tallied 0 0 0 {} :=
  ⟨tidy_reset c, rfl, rfl, [], ⟨rfl, rfl, rfl⟩, rfl⟩

end RangeCache

/-! ## The table -/

namespace RangeTable

theorem counts_foldl_serve (now : Nat) (packets : List (Packet Request)) (t : RangeTable) :
    (packets.foldl (serve now) t).stats.lookups = t.stats.lookups + packets.length ∧
      (packets.foldl (serve now) t).port.responses.length
        = t.port.responses.length + packets.length := by
  rw [stats_foldl_serve, responses_foldl_serve, Port.length_sendAll, List.length_map]
  exact ⟨rfl, rfl⟩

/-- **The table counts each lookup that it answers.** -/
theorem counts_cycle (now : Nat) (t : RangeTable) :
    (t.cycle now).stats.lookups + (t.cycle now).port.requests.length
        = t.stats.lookups + t.port.requests.length ∧
      (t.cycle now).stats.lookups + t.port.responses.length
        = t.stats.lookups + (t.cycle now).port.responses.length := by
  have hdrain := congrArg List.length (t.port.requests.items_drain now)
  rw [List.length_append, List.length_map, Port.length_items, Port.length_items] at hdrain
  obtain ⟨hlookups, hresponses⟩ := counts_foldl_serve now (t.port.requests.drain now).1
    { t with port := { t.port with requests := (t.port.requests.drain now).2 } }
  rw [requests_cycle]
  change (t.cycle now).stats.lookups = t.stats.lookups + _ at hlookups
  change (t.cycle now).port.responses.length = t.port.responses.length + _ at hresponses
  omega

end RangeTable

/-! ## Switches -/

namespace Switch

/-- How many requests of an input were passed on. -/
def grants (s : Switch) (input : Nat) : Nat := s.stats.grants.getD input 0

/-- How many responses were delivered to an input. -/
def deliveries (s : Switch) (input : Nat) : Nat := s.stats.responses.getD input 0

/-- The link of an input. -/
def linkOf (s : Switch) (input : Nat) : Lookup.Link := s.inputs.getD input {}

/-- What a switch counts is what it does to the links of its inputs and to the shared one. -/
structure Counts (before after : Switch × Lookup.Link) : Prop where
  /-- Each request of an input that it counts has been passed on. -/
  passed : ∀ input, after.1.grants input + (after.1.linkOf input).requests.length
    = before.1.grants input + (before.1.linkOf input).requests.length
  /-- Each response that it counts is on the link of its input. -/
  delivered : ∀ input, after.1.deliveries input + (before.1.linkOf input).responses.length
    = before.1.deliveries input + (after.1.linkOf input).responses.length
  /-- Each request that it counts is on the shared link. -/
  shared : after.1.stats.grants.sum + before.2.requests.length
    = before.1.stats.grants.sum + after.2.requests.length

variable {inputs now : Nat} {s s' : Switch} {lower lower' : Lookup.Link}

theorem Counts.trans {first second third : Switch × Lookup.Link} (h : Counts first second)
    (h' : Counts second third) : Counts first third := by
  refine ⟨fun input => (h'.passed input).trans (h.passed input), fun input => ?_, ?_⟩
  · have hfirst := h.delivered input
    have hsecond := h'.delivered input
    omega
  · have hfirst := h.shared
    have hsecond := h'.shared
    omega

theorem getD_modify {counts : List Nat} {input : Nat} (h : input < counts.length) (n other : Nat) :
    (counts.modify input (· + n)).getD other 0
      = counts.getD other 0 + if input = other then n else 0 := by
  rw [List.getD_eq_getElem?_getD, List.getElem?_modify, List.getD_eq_getElem?_getD]
  split
  · rename_i heq
    rw [← heq, List.getElem?_eq_getElem h]
    rfl
  · rw [show (fun a : Nat => a) = id from rfl, id_map, Nat.add_zero]

theorem sum_modify {counts : List Nat} {input : Nat} (h : input < counts.length) (n : Nat) :
    (counts.modify input (· + n)).sum = counts.sum + n := by
  have hset := sum_map_set (List.getElem?_eq_getElem h) id (counts[input] + n)
  rw [List.map_id, List.map_id] at hset
  rw [List.modify_eq_set_get _ h]
  simp only [id, List.get_eq_getElem] at hset ⊢
  omega

/-- The link of an input after the link of one input was replaced. -/
theorem linkOf_of_set {input : Nat} {old new : Lookup.Link} (h : s.inputs[input]? = some old)
    (s' : Switch) (hset : s'.inputs = s.inputs.set input new) (other : Nat) :
    s'.linkOf other = if input = other then new else s.linkOf other := by
  rw [linkOf, hset, linkOf, List.getD_eq_getElem?_getD, List.getD_eq_getElem?_getD,
    List.getElem?_set, if_pos (List.getElem?_eq_some_iff.mp h).1]
  split
  · rfl
  · rfl

theorem linkOf_eq {input : Nat} {link : Lookup.Link} (h : s.inputs[input]? = some link) :
    s.linkOf input = link := by
  rw [linkOf, List.getD_eq_getElem?_getD, h, Option.getD_some]

/-- What waits on the links of the inputs differs after one link was replaced as it differs on that
link. -/
theorem balance_of_set {input : Nat} {old new : Lookup.Link} (h : s.inputs[input]? = some old)
    (s' : Switch) (hset : s'.inputs = s.inputs.set input new) (f : Lookup.Link → Nat)
    (less more other : Nat) (hf : f new + less = f old + more) :
    (f (s'.linkOf other) + if input = other then less else 0)
      = f (s.linkOf other) + if input = other then more else 0 := by
  rw [linkOf_of_set h s' hset]
  split
  · rename_i heq
    rw [← heq, linkOf_eq h]
    exact hf
  · rfl

theorem Shape.move (h : s.Shape inputs) (hmove : Move now (s, lower) (s', lower')) :
    s'.Shape inputs := by
  cases hmove with
  | deliver _ _ => exact h.delivered now _ _
  | forward _ _ harbiter => exact h.granted (harbiter.trans h.links) _ _ _

theorem Move.counts (h : s.Shape inputs) (hmove : Move now (s, lower) (s', lower')) :
    Counts (s, lower) (s', lower') := by
  cases hmove with
  | @deliver _ _ link packet rest _ hlink =>
    have hlt := (List.getElem?_eq_some_iff.mp hlink).1
    rw [h.links, ← h.responses] at hlt
    have hbalance := balance_of_set hlink (s.delivered now link packet.item) rfl
    refine ⟨fun other => ?_, fun other => ?_, rfl⟩
    · have hrequests := hbalance (·.requests.length) 0 0 other rfl
      rw [ite_self] at hrequests
      exact congrArg (s.grants other + ·) hrequests
    · have hresponses := hbalance (·.responses.length) 0 1 other (Port.length_send _ _ _ _)
      rw [ite_self, Nat.add_zero] at hresponses
      show (s.stats.responses.modify _ (· + 1)).getD other 0 + (s.linkOf other).responses.length
        = s.stats.responses.getD other 0
          + ((s.delivered now link packet.item).linkOf other).responses.length
      rw [getD_modify hlt, hresponses]
      omega
  | @forward _ _ link input packet rest arbiter hlink hpop _ =>
    have hlt := (List.getElem?_eq_some_iff.mp hlink).1
    rw [h.links, ← h.grants] at hlt
    have hbalance := balance_of_set hlink (s.granted arbiter input link rest) rfl
    refine ⟨fun other => ?_, fun other => ?_, ?_⟩
    · have hrequests := hbalance (·.requests.length) 1 0 other (Port.length_of_pop? hpop).symm
      rw [ite_self, Nat.add_zero] at hrequests
      show (s.stats.grants.modify _ (· + 1)).getD other 0
          + ((s.granted arbiter input link rest).linkOf other).requests.length
        = s.stats.grants.getD other 0 + (s.linkOf other).requests.length
      rw [getD_modify hlt, ← hrequests]
      omega
    · have hresponses := hbalance (·.responses.length) 0 0 other rfl
      rw [ite_self] at hresponses
      exact congrArg (s.deliveries other + ·) hresponses.symm
    · show (s.stats.grants.modify _ (· + 1)).sum + lower.requests.length
        = s.stats.grants.sum + (lower.requests.send _ _ now).length
      rw [sum_modify hlt, Port.length_send]
      omega

/-- A switch with a single input counts all that it passes through. -/
theorem counts_passThrough (hlinks : s.inputs.length = 1) (hgrants : s.stats.grants.length = 1)
    (hresponses : s.stats.responses.length = 1) (lower : Lookup.Link) :
    Counts (s, lower) (s.passThrough lower) := by
  obtain ⟨links, mode, delay, shift, ⟨granted, delivered⟩⟩ := s
  obtain ⟨link, rfl⟩ := List.length_eq_one_iff.mp hlinks
  obtain ⟨granted, rfl⟩ := List.length_eq_one_iff.mp hgrants
  obtain ⟨delivered, rfl⟩ := List.length_eq_one_iff.mp hresponses
  obtain ⟨-, hrequests⟩ := link.requests.length_moveInto lower.requests
  obtain ⟨-, hanswers⟩ := lower.responses.length_moveInto link.responses
  refine ⟨fun input => ?_, fun input => ?_, ?_⟩
  · cases input with
    | zero => rfl
    | succ input => rfl
  · cases input with
    | zero =>
      show delivered + lower.responses.length + link.responses.length
        = delivered + (lower.responses.moveInto link.responses).2.length
      omega
    | succ input => rfl
  · show granted + link.requests.length + 0 + lower.requests.length
      = granted + 0 + (link.requests.moveInto lower.requests).2.length
    omega

/-- **All that a switch does is counted.** -/
theorem Shape.counts_cycle (h : s.Shape inputs) (hlower : s.Deliverable lower)
    (hfits : s.Stampable) (now : Nat) : Counts (s, lower) (s.cycle now lower).state := by
  rcases h.mode with ⟨hmode, hone⟩ | ⟨arbiter, hmode, -⟩
  · rw [Switch.cycle, hmode]
    exact counts_passThrough (h.links.trans hone) (h.grants.trans hone) (h.responses.trans hone) _
  · have hmoves := (h.cycle_moves hmode hlower hfits now).2
    have hcounts : ∀ {next}, Relation.ReflTransGen (Move now) (s, lower) next →
        next.1.Shape inputs ∧ Counts (s, lower) next := by
      intro next hreach
      induction hreach with
      | refl => exact ⟨h, fun _ => rfl, fun _ => rfl, rfl⟩
      | tail _ hmove ih => exact ⟨ih.1.move hmove, ih.2.trans (hmove.counts ih.1)⟩
    exact (hcounts hmoves).2

/-- A switch that was reset has counted nothing, and nothing is under way. -/
theorem counts_reset (s : Switch) :
    (∀ input, s.reset.grants input = 0) ∧ (∀ input, s.reset.deliveries input = 0) ∧
      (∀ input, s.reset.linkOf input = {}) ∧ s.reset.stats.grants.sum = 0 := by
  have hzero : ∀ input, (List.replicate s.inputs.length 0).getD input 0 = 0 := by
    intro input
    rw [List.getD_eq_getElem?_getD, List.getElem?_replicate]
    split
    · rfl
    · rfl
  refine ⟨hzero, hzero, fun input => ?_, ?_⟩
  · show (s.inputs.map fun _ => ({} : Lookup.Link)).getD input {} = {}
    rw [List.getD_eq_getElem?_getD, List.getElem?_map]
    cases s.inputs[input]? with
    | none => rfl
    | some _ => rfl
  · show (List.replicate s.inputs.length 0).sum = 0
    rw [List.sum_replicate, nsmul_zero]

end Switch

end BoundsCheck
