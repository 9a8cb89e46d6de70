import Mathlib.Algebra.BigOperators.Group.List.Basic
import BoundsCheck.Proofs.Counting
import BoundsCheck.Proofs.Checking
import BoundsCheck.Proofs.Relaying

/-!
# Work left to do

On its way through a machine a trace changes stage: it is queued, given to its checker, asked for at
one cache after the other, answered, and let go.  Between two stages it may be delayed.  The work
left for it is counted in cycles: a `span`, which is longer than any delay, for each stage ahead,
and the cycles until it becomes visible.  A component that takes something off a port hands it on
to a stage further down, so what is saved is more than the delay that is added.

There are 13 stages ahead of a trace in the queue and 12 at the input of a checker; 11 of a question
at the cache of a core, 7 at the switch, 6 at the shared cache and 2 at the table; 3 of a question
that waits at a miss, 2 of an answer of a cache, 1 of any other answer and of a trace that leaves.
A cache that passes a question on keeps it waiting as well, and therefore it is not one stage from a
cache down to what is below it, but four.

* `Advances` — a step adds no work, and leaves less unless it was idle.
* `Port.work`, `RangeCache.work`, `Switch.work`, `Checker.work` — the work left.
* `RangeTable.work_cycle`, `RangeCache.work_cycle`, `Switch.Shape.work_cycle`,
  `Checker.Sound.work_cycle` — a cycle of a component advances.
-/

set_option autoImplicit false

namespace BoundsCheck

open Lookup TagPacking

/-! ## Steps that get something done -/

/-- A step adds no work, and leaves less unless it was idle. -/
def Advances (idle : Prop) (before after : Nat) : Prop :=
  after ≤ before ∧ (idle ∨ after < before)

namespace Advances

variable {idle idle' : Prop} {a b c a' b' : Nat}

theorem of_lt (h : b < a) : Advances idle a b := ⟨Nat.le_of_lt h, .inr h⟩

theorem of_eq (h : b = a) (hidle : idle) : Advances idle a b := ⟨Nat.le_of_eq h, .inl hidle⟩

theorem mono (h : Advances idle a b) (himp : idle → idle') : Advances idle' a b :=
  ⟨h.1, h.2.imp_left himp⟩

theorem trans (h : Advances idle a b) (h' : Advances idle' b c) : Advances (idle ∧ idle') a c := by
  obtain ⟨hle, hidle⟩ := h
  obtain ⟨hle', hidle'⟩ := h'
  refine ⟨Nat.le_trans hle' hle, ?_⟩
  rcases hidle with hidle | hlt
  · rcases hidle' with hidle' | hlt'
    · exact .inl ⟨hidle, hidle'⟩
    · exact .inr (Nat.lt_of_lt_of_le hlt' hle)
  · exact .inr (Nat.lt_of_le_of_lt hle' hlt)

theorem add (h : Advances idle a b) (h' : Advances idle' a' b') :
    Advances (idle ∧ idle') (a + a') (b + b') := by
  obtain ⟨hle, hidle⟩ := h
  obtain ⟨hle', hidle'⟩ := h'
  refine ⟨Nat.add_le_add hle hle', ?_⟩
  rcases hidle with hidle | hlt
  · rcases hidle' with hidle' | hlt'
    · exact .inl ⟨hidle, hidle'⟩
    · exact .inr (Nat.add_lt_add_of_le_of_lt hle hlt')
  · exact .inr (Nat.add_lt_add_of_lt_of_le hlt hle')

/-- What advances also does so within a larger whole. -/
theorem within (h : Advances idle a b) (rest : Nat) (ha : a' = a + rest) (hb : b' = b + rest) :
    Advances idle a' b' := by
  rw [ha, hb]
  exact ⟨Nat.add_le_add_right h.1 rest, h.2.imp_right fun hlt => Nat.add_lt_add_right hlt rest⟩

/-- If each of several parts advances, so do all together. -/
theorem sum_map {α : Type} {l : List α} {P : α → Prop} {f g : α → Nat}
    (h : ∀ x ∈ l, Advances (P x) (f x) (g x)) :
    Advances (∀ x ∈ l, P x) (l.map f).sum (l.map g).sum := by
  induction l with
  | nil => exact of_eq rfl fun x hx => absurd hx List.not_mem_nil
  | cons x l ih =>
    rw [List.map_cons, List.map_cons, List.sum_cons, List.sum_cons]
    refine ((h x List.mem_cons_self).add (ih fun y hy => h y (List.mem_cons_of_mem x hy))).mono ?_
    rintro ⟨hx, hl⟩
    exact List.forall_mem_cons.mpr ⟨hx, hl⟩

/-- So do two rows of parts that work side by side, each with its partner. -/
theorem sum_zipWith {α β : Type} {l : List α} {l' : List β} {P : α × β → Prop} {f : α → Nat}
    {g : β → Nat} {u : α → β → α} {v : α → β → β} (hlength : l.length = l'.length)
    (h : ∀ pair ∈ l.zip l', Advances (P pair) (f pair.1 + g pair.2)
      (f (u pair.1 pair.2) + g (v pair.1 pair.2))) :
    Advances (∀ pair ∈ l.zip l', P pair) ((l.map f).sum + (l'.map g).sum)
      (((l.zipWith u l').map f).sum + ((l.zipWith v l').map g).sum) := by
  induction l generalizing l' with
  | nil =>
    rw [List.length_nil, eq_comm, List.length_eq_zero_iff] at hlength
    rw [hlength]
    exact of_eq rfl fun pair hpair => absurd hpair List.not_mem_nil
  | cons x l ih =>
    cases l' with
    | nil => cases hlength
    | cons y l' =>
      rw [List.zip_cons_cons] at h ⊢
      have hfirst := h (x, y) List.mem_cons_self
      have hrest := ih (Nat.succ.inj hlength) fun pair hpair => h pair (List.mem_cons_of_mem _ hpair)
      refine ((hfirst.add hrest).mono ?_).within 0 ?_ ?_
      · rintro ⟨hpair, hpairs⟩
        exact List.forall_mem_cons.mpr ⟨hpair, hpairs⟩
      · simp only [List.map_cons, List.sum_cons]
        omega
      · simp only [List.zipWith_cons_cons, List.map_cons, List.sum_cons]
        omega

end Advances

/-! ## Ports -/

namespace Port

variable {α : Type} {p rest : Port α} {now : Nat} {packet : Packet α}

/-- The work left for the items on a port in the cycle `t`: for each of them what is `ahead` of it,
and the cycles until it is visible. -/
def work (ahead t : Nat) (p : Port α) : Nat :=
  (p.packets.map fun packet => ahead + (packet.ready - t)).sum

@[simp] theorem work_send (ahead : Nat) (item : α) (delay now : Nat) (p : Port α) :
    (p.send item delay now).work ahead (now + 1)
      = p.work ahead (now + 1) + (ahead + (delay - 1)) := by
  have hdelay : now + delay - (now + 1) = delay - 1 := by omega
  simp [work, send, hdelay]

@[simp] theorem work_sendAll (ahead : Nat) (items : List α) (delay now : Nat) (p : Port α) :
    (p.sendAll items delay now).work ahead (now + 1)
      = p.work ahead (now + 1) + items.length * (ahead + (delay - 1)) := by
  have hdelay : now + delay - (now + 1) = delay - 1 := by omega
  simp [work, sendAll, hdelay, Function.comp_def]

theorem work_of_pop? (h : p.pop? now = some (packet, rest)) (ahead : Nat) :
    p.work ahead (now + 1) = ahead + rest.work ahead (now + 1) := by
  obtain ⟨hpackets, hready⟩ := pop?_eq_some_iff.mp h
  have hvisible : packet.ready - (now + 1) = 0 := by omega
  rw [work, hpackets, List.map_cons, List.sum_cons, hvisible, Nat.add_zero, work]

theorem work_drain (now ahead : Nat) (p : Port α) :
    p.work ahead (now + 1)
      = (p.drain now).1.length * ahead + (p.drain now).2.work ahead (now + 1) := by
  have hvisible : (p.drain now).1.map (fun packet => ahead + (packet.ready - (now + 1)))
      = (p.drain now).1.map fun _ => ahead := by
    refine List.map_congr_left fun packet hmem => ?_
    have hready := List.mem_takeWhile_imp hmem
    rw [decide_eq_true_eq] at hready
    omega
  rw [work, p.packets_drain now, List.map_append, List.sum_append, hvisible, List.map_const',
    List.sum_replicate_nat, work]

/-- A port from which nothing can be taken has nothing drained. -/
theorem pop?_eq_none_of_drain (h : (p.drain now).1 = []) : p.pop? now = none := by
  obtain ⟨_ | ⟨first, others⟩⟩ := p
  · rfl
  · by_cases hready : first.ready ≤ now
    · simp [drain, hready] at h
    · simp [pop?, hready]

/-- Nor can anything be taken from an empty port. -/
theorem pop?_eq_none_of_length_eq_zero (h : p.length = 0) : p.pop? now = none := by
  obtain ⟨_ | ⟨first, others⟩⟩ := p
  · rfl
  · cases h

theorem work_moveInto (ahead t : Nat) (source target : Port α) :
    (source.moveInto target).2.work ahead t = target.work ahead t + source.work ahead t := by
  simp [work, moveInto]

theorem work_add (ahead more t : Nat) (p : Port α) :
    p.work (ahead + more) t = p.work ahead t + p.length * more := by
  rw [work, work, length]
  induction p.packets with
  | nil => simp
  | cons packet packets ih =>
    rw [List.map_cons, List.sum_cons, List.map_cons, List.sum_cons, ih, List.length_cons,
      Nat.succ_mul]
    omega

end Port

/-- The work left for the questions and the answers on a link. -/
def Link.work {α β : Type} (asking answering t : Nat) (l : Link α β) : Nat :=
  l.requests.work asking t + l.responses.work answering t

/-! ## The range table -/

namespace RangeTable

variable {span : Nat}

theorem responses_foldl_serve (now : Nat) (packets : List (Packet Request)) (t : RangeTable) :
    (packets.foldl (serve now) t).port.responses
      = t.port.responses.sendAll
          (packets.map fun packet => packet.item.answer (t.answerFor packet.item.bufferId))
          t.latency.toNat now := by
  induction packets generalizing t with
  | nil => exact (Port.sendAll_nil _ _ _).symm
  | cons packet packets ih =>
    rw [List.foldl_cons, ih]
    show Port.sendAll _ _ _ (t.port.responses.send _ _ _) = _
    simp only [Port.sendAll, Port.send, List.map_cons, List.append_assoc, List.singleton_append]
    rfl

/-- The answers that the table gives in a cycle come behind those that it has given. -/
theorem responses_cycle (now : Nat) (t : RangeTable) :
    (t.cycle now).port.responses
      = t.port.responses.sendAll ((t.port.requests.drain now).1.map fun packet =>
          packet.item.answer (t.answerFor packet.item.bufferId)) t.latency.toNat now :=
  responses_foldl_serve now _ { t with port := { t.port with requests := _ } }

/-- **A cycle of the table advances**, unless no question is visible. -/
theorem work_cycle {t : RangeTable} (hspan : t.latency.toNat < span) (now : Nat) :
    Advances (t.port.requests.pop? now = none) (t.port.work (2 * span) span (now + 1))
      ((t.cycle now).port.work (2 * span) span (now + 1)) := by
  rw [Link.work, Link.work, requests_cycle, responses_cycle, Port.work_sendAll, List.length_map,
    t.port.requests.work_drain now (2 * span)]
  rcases hdrain : (t.port.requests.drain now).1 with _ | ⟨packet, packets⟩
  · refine .of_eq ?_ (Port.pop?_eq_none_of_drain hdrain)
    rw [List.length_nil]
    omega
  · have hless : (packet :: packets).length * (span + (t.latency.toNat - 1))
        < (packet :: packets).length * (2 * span) :=
      Nat.mul_lt_mul_of_pos_left (by omega) (Nat.succ_pos _)
    refine .of_lt ?_
    omega

end RangeTable

/-! ## Range caches -/

namespace RangeCache

variable {span asking below now : Nat} {c : RangeCache} {lower : Lookup.Link}

/-- The work left for the lookups in a cache: whoever waits has one stage more ahead than an
answer. -/
def work (asking span t : Nat) (c : RangeCache) : Nat :=
  c.port.work asking (2 * span) t + c.misses.waiting.card * (3 * span)

/-- Whoever waits for an answer gets one. -/
theorem work_answerWaiting (hwf : c.misses.WellFormed) (hspan : c.config.hitLatency.toNat < span)
    (asking now : Nat) (rsp : Response) :
    (c.answerWaiting now rsp).work asking span (now + 1) ≤ c.work asking span (now + 1) := by
  rw [answerWaiting]
  split
  · exact Nat.le_refl _
  · rename_i waiting misses htake
    have hcard : c.misses.waiting.card = waiting.length + misses.waiting.card := by
      rw [(hwf.of_take? htake).1, Multiset.card_add, Multiset.coe_card]
    have hless : waiting.length * (2 * span + (c.config.hitLatency.toNat - 1))
        ≤ waiting.length * (3 * span) := Nat.mul_le_mul_left _ (by omega)
    simp only [work, Link.work, Port.work_sendAll, List.length_map, hcard, Nat.add_mul]
    omega

/-- Taking in a response advances, unless none is visible. -/
theorem work_takeResponse (hwf : c.misses.WellFormed) (hspan : c.config.hitLatency.toNat < span)
    (asking below now : Nat) (lower : Lookup.Link) :
    Advances (lower.responses.pop? now = none)
      (c.work asking span (now + 1) + lower.work below span (now + 1))
      ((c.takeResponse now lower).1.work asking span (now + 1)
        + (c.takeResponse now lower).2.work below span (now + 1)) := by
  rw [takeResponse]
  rcases hpop : lower.responses.pop? now with _ | ⟨packet, rest⟩
  · exact .of_eq rfl rfl
  · have hkeep : (c.keep packet.item).work asking span (now + 1) = c.work asking span (now + 1) := by
      rw [work, work, port_keep, misses_keep]
    have hfill : (c.fill now packet.item).work asking span (now + 1)
        ≤ c.work asking span (now + 1) := by
      rw [← hkeep]
      exact work_answerWaiting (by rwa [misses_keep]) (by rwa [config_keep]) asking now _
    refine .of_lt ?_
    simp only [Link.work, Port.work_of_pop? hpop]
    omega

/-- A question that is taken in is answered or waits, and may be passed on while it waits. -/
theorem work_access (hwf : c.misses.WellFormed) (hhit : c.config.hitLatency.toNat < span)
    (hforward : c.config.forwardingLatency.toNat < span) (hasking : below + 4 * span ≤ asking)
    (now : Nat) (req : Request) (lower : Lookup.Link) :
    (c.access now req lower).1.work asking span (now + 1)
        + (c.access now req lower).2.work below span (now + 1)
      < c.work asking span (now + 1) + lower.work below span (now + 1) + asking := by
  have hwait : (c.misses.add req).waiting.card * (3 * span)
      = c.misses.waiting.card * (3 * span) + 3 * span := by
    rw [hwf.waiting_add, Multiset.card_add, Multiset.card_singleton, Nat.succ_mul]
  rw [access]
  split
  · simp only [work, hit, Link.work, Link.respond, Port.work_send]
    omega
  · split
    · simp only [work, mergeMiss, hwait]
      omega
    · -- the question counts twice now, where it waits and below
      simp only [work, readMiss, hwait, Link.work, Link.request, Port.work_send]
      omega

/-- Taking in a question advances, unless none is visible. -/
theorem work_takeRequest (hwf : c.misses.WellFormed) (hhit : c.config.hitLatency.toNat < span)
    (hforward : c.config.forwardingLatency.toNat < span) (hasking : below + 4 * span ≤ asking)
    (now : Nat) (lower : Lookup.Link) :
    Advances (c.port.requests.pop? now = none)
      (c.work asking span (now + 1) + lower.work below span (now + 1))
      ((c.takeRequest now lower).1.work asking span (now + 1)
        + (c.takeRequest now lower).2.work below span (now + 1)) := by
  rcases hpop : c.port.requests.pop? now with _ | ⟨packet, rest⟩
  · rw [takeRequest, hpop]
    exact .of_eq rfl rfl
  · have haccess := work_access (c := c.taken now packet rest) hwf hhit hforward hasking now
      packet.item lower
    have htaken : (c.taken now packet rest).work asking span (now + 1) + asking
        = c.work asking span (now + 1) := by
      simp only [work, Link.work, Port.work_of_pop? hpop]
      show rest.work asking (now + 1) + c.port.responses.work (2 * span) (now + 1)
        + c.misses.waiting.card * (3 * span) + asking = _
      omega
    rw [takeRequest_of_pop? hpop]
    refine .of_lt ?_
    omega

/-- **A cycle of a cache advances**, unless neither a response nor a question is visible. -/
theorem work_cycle (hwf : c.misses.WellFormed) (hhit : c.config.hitLatency.toNat < span)
    (hforward : c.config.forwardingLatency.toNat < span) (hasking : below + 4 * span ≤ asking)
    (now : Nat) (lower : Lookup.Link) :
    Advances (lower.responses.pop? now = none ∧ c.port.requests.pop? now = none)
      (c.work asking span (now + 1) + lower.work below span (now + 1))
      ((c.cycle now lower).1.work asking span (now + 1)
        + (c.cycle now lower).2.work below span (now + 1)) := by
  have hresponse := work_takeResponse (c := c.countWaiting) hwf hhit asking below now lower
  have hconfig : (c.countWaiting.takeResponse now lower).1.config = c.config :=
    config_takeResponse now lower c.countWaiting
  have hrequests : (c.countWaiting.takeResponse now lower).1.port.requests = c.port.requests :=
    (requests_takeResponse now lower c.countWaiting).1
  have hrequest := work_takeRequest (wellFormed_takeResponse (c := c.countWaiting) hwf now lower)
    (by rwa [hconfig]) (by rwa [hconfig]) hasking now (c.countWaiting.takeResponse now lower).2
  rw [hrequests] at hrequest
  exact hresponse.trans hrequest

end RangeCache

/-! ## Switches -/

/-- A sum after one of its parts was replaced. -/
theorem sum_map_set {α : Type} {l : List α} {i : Nat} {old : α} (h : l[i]? = some old)
    (f : α → Nat) (new : α) : ((l.set i new).map f).sum + f old = (l.map f).sum + f new := by
  induction l generalizing i with
  | nil => cases h
  | cons first others ih =>
    cases i with
    | zero =>
      cases h
      simp only [List.set_cons_zero, List.map_cons, List.sum_cons]
      omega
    | succ i =>
      have hothers := ih h
      simp only [List.set_cons_succ, List.map_cons, List.sum_cons]
      omega

namespace Switch

variable {span asking below now inputs : Nat} {s : Switch} {lower : Lookup.Link}

/-- The work left for the lookups on the links of the inputs. -/
def work (asking span t : Nat) (s : Switch) : Nat := (s.inputs.map (·.work asking span t)).sum

/-- A response that was delivered has one stage less ahead of it. -/
theorem work_delivered {packet : Packet Response} {rest : Port Response} {link : Lookup.Link}
    (hpop : lower.responses.pop? now = some (packet, rest))
    (hlink : s.inputs[inputOf s.shift packet.item.tag]? = some link) (asking below span : Nat) :
    (s.delivered now link packet.item).work asking span (now + 1)
        + Link.work below (2 * span) (now + 1) { lower with responses := rest } + span
      = s.work asking span (now + 1) + lower.work below (2 * span) (now + 1) := by
  have hset := sum_map_set hlink (·.work asking span (now + 1))
    (link.respond { packet.item with tag := unstamp s.shift packet.item.tag } 1 now)
  simp only [work, delivered, Link.work, Link.respond, Port.work_send,
    Port.work_of_pop? hpop] at hset ⊢
  omega

/-- Passing a request on advances, unless none is visible. -/
theorem work_grant (hshift : s.shift ≤ 32) (hfits : s.Stampable) {arbiter : Arbiter}
    (harbiter : arbiter.inputs = s.inputs.length) (hspan : s.delay.toNat < span)
    (hasking : below + span = asking) (answering now : Nat) (lower : Lookup.Link) :
    ∃ next, s.grant now arbiter lower = .ok next ∧
      Advances (∀ link ∈ s.inputs, link.requests.pop? now = none)
        (s.work asking span (now + 1) + lower.work below answering (now + 1))
        (next.1.work asking span (now + 1) + next.2.work below answering (now + 1)) := by
  rcases grant_cases hshift hfits harbiter now lower with
    ⟨hnone, heq⟩ | ⟨input, link, packet, rest, next, hlink, hpop, -, heq⟩
  · exact ⟨_, heq, .of_eq rfl hnone⟩
  · refine ⟨_, heq, .of_lt ?_⟩
    have hset := sum_map_set hlink (·.work asking span (now + 1)) { link with requests := rest }
    simp only [work, granted, Link.work, Link.request, Port.work_send,
      Port.work_of_pop? hpop] at hset ⊢
    omega

/-- Passing everything through advances, unless there is nothing to pass. -/
theorem work_passThrough (hlinks : s.inputs.length = 1) (hspan : 0 < span)
    (hasking : below + span = asking) (now : Nat) (lower : Lookup.Link) :
    Advances (lower.responses.pop? now = none ∧ ∀ link ∈ s.inputs, link.requests.pop? now = none)
      (s.work asking span (now + 1) + lower.work below (2 * span) (now + 1))
      ((s.passThrough lower).1.work asking span (now + 1)
        + (s.passThrough lower).2.work below (2 * span) (now + 1)) := by
  obtain ⟨link, hlink⟩ := List.length_eq_one_iff.mp hlinks
  have hafter : (s.passThrough lower).1.work asking span (now + 1)
      + (s.passThrough lower).2.work below (2 * span) (now + 1)
      = lower.requests.work below (now + 1) + link.requests.work below (now + 1)
        + link.responses.work span (now + 1) + lower.responses.work span (now + 1) := by
    rw [passThrough, hlink]
    simp only [work, Link.work, List.map_cons, List.map_nil, List.sum_cons, List.sum_nil,
      Port.work_moveInto]
    show 0 + _ + 0 + (_ + 0) = _
    omega
  have hrequests := Port.work_add below span (now + 1) link.requests
  have hresponses := Port.work_add span span (now + 1) lower.responses
  rw [hasking] at hrequests
  rw [← Nat.two_mul] at hresponses
  rw [hafter, work, hlink, List.map_cons, List.map_nil, List.sum_cons, List.sum_nil, Link.work,
    Link.work, hrequests, hresponses]
  by_cases hempty : link.requests.length = 0 ∧ lower.responses.length = 0
  · obtain ⟨hrequest, hresponse⟩ := hempty
    rw [hrequest, hresponse]
    refine .of_eq (by omega) ⟨Port.pop?_eq_none_of_length_eq_zero hresponse, ?_⟩
    intro other hother
    rw [List.mem_singleton.mp hother]
    exact Port.pop?_eq_none_of_length_eq_zero hrequest
  · have hpos : 0 < (link.requests.length + lower.responses.length) * span :=
      Nat.mul_pos (by omega) hspan
    rw [Nat.add_mul] at hpos
    refine .of_lt ?_
    omega

/-- **A cycle of a switch advances**, unless no response and no request is visible. -/
theorem Shape.work_cycle (h : s.Shape inputs) (hlower : s.Deliverable lower) (hfits : s.Stampable)
    (hspan : s.delay.toNat < span) (hasking : below + span = asking) (now : Nat) :
    Advances (lower.responses.pop? now = none ∧ ∀ link ∈ s.inputs, link.requests.pop? now = none)
      (s.work asking span (now + 1) + lower.work below (2 * span) (now + 1))
      ((s.cycle now lower).state.1.work asking span (now + 1)
        + (s.cycle now lower).state.2.work below (2 * span) (now + 1)) := by
  have hpos : 0 < span := Nat.zero_lt_of_lt hspan
  rcases h.mode with ⟨hmode, hone⟩ | ⟨arbiter, hmode, harbiter⟩
  · rw [Switch.cycle, hmode]
    exact work_passThrough (h.links.trans hone) hpos hasking now lower
  · have hshift : s.shift ≤ 32 := Nat.le_of_lt h.shift_lt
    have hinputs : arbiter.inputs = s.inputs.length := harbiter.trans h.links.symm
    rcases route_cases hlower now with ⟨hnone, heq⟩ | ⟨packet, rest, link, hpop, hlink, heq⟩
    · obtain ⟨next, hgrant, hadvances⟩ :=
        work_grant hshift hfits hinputs hspan hasking (2 * span) now lower
      rw [cycle_of_route hmode heq, hgrant, Outcome.state_ok]
      exact hadvances.mono fun hidle => ⟨hnone, hidle⟩
    · have hdelivered := work_delivered hpop hlink asking below span
      have hstampable : (s.delivered now link packet.item).Stampable :=
        hfits.of_set rfl rfl (hfits link (List.mem_of_getElem? hlink))
      obtain ⟨next, hgrant, hle, -⟩ := work_grant (s := s.delivered now link packet.item) hshift
        hstampable (hinputs.trans List.length_set.symm) hspan hasking (2 * span) now
        { lower with responses := rest }
      rw [cycle_of_route hmode heq, hgrant, Outcome.state_ok]
      refine .of_lt ?_
      omega

end Switch

/-! ## Checkers -/

namespace Checker

variable {span now : Nat} {c c' : Checker} {l1 l1' : Lookup.Link} {rest : Multiset Request}

/-- The work left for the traces on the ports of a checker. -/
def work (span t : Nat) (c : Checker) : Nat :=
  c.input.work (12 * span) t + c.output.work span t

/-- Every trace that the checker was given has a first access. -/
def Open (c : Checker) : Prop := ∀ trace ∈ c.input.items, trace.firstAccess? ≠ none

theorem work_of_pop? {packet : Packet Trace} {others : Port Trace}
    (hpop : c.input.pop? now = some (packet, others)) (span : Nat) :
    c.work span (now + 1) = work span (now + 1) { c with input := others } + 12 * span := by
  simp only [work, Port.work_of_pop? hpop]
  omega

theorem work_settle (span now : Nat) (rsp : Response) (trace : Trace) (c : Checker) :
    (c.settle now rsp trace).work span (now + 1) = c.work span (now + 1) + span := by
  show c.input.work (12 * span) (now + 1) + (c.output.send trace 1 now).work span (now + 1) = _
  rw [Port.work_send, work]
  omega

theorem work_unresolved (span now : Nat) (trace : Trace) (c : Checker) :
    (c.unresolved now trace).work span (now + 1) ≤ c.work span (now + 1) + span := by
  rw [unresolved]
  split
  · exact Nat.le_add_right _ _
  · simp only [work, emit, Port.work_send]
    omega

/-- A move takes in traces that have a first access, and none else. -/
theorem Move.input (hmove : Move now (c, l1) (c', l1')) :
    ∃ gone, c.input.items = gone ++ c'.input.items ∧
      ∀ trace ∈ gone, trace.firstAccess? ≠ none := by
  have htaken : ∀ {packet : Packet Trace} {others : Port Trace} {access : MemAccess},
      c.input.pop? now = some (packet, others) → packet.item.firstAccess? = some access →
      ∃ gone, c.input.items = gone ++ others.items ∧
        ∀ trace ∈ gone, trace.firstAccess? ≠ none := by
    intro packet others access hpop haccess
    refine ⟨[packet.item], Port.items_of_pop? hpop, fun trace htrace => ?_⟩
    rw [List.mem_singleton.mp htrace, haccess]
    exact Option.some_ne_none access
  cases hmove with
  | settle => exact ⟨[], rfl, fun _ htrace => absurd htrace List.not_mem_nil⟩
  | stall => exact ⟨[], rfl, fun _ htrace => absurd htrace List.not_mem_nil⟩
  | unresolved hpop haccess _ =>
    rw [Checker.unresolved]
    split
    · exact htaken hpop haccess
    · exact htaken hpop haccess
  | ask hpop haccess _ _ => exact htaken hpop haccess

theorem Move.open (hmove : Move now (c, l1) (c', l1')) (hopen : c.Open) : c'.Open := by
  obtain ⟨gone, hinput, -⟩ := hmove.input
  intro trace htrace
  refine hopen trace ?_
  rw [hinput]
  exact List.mem_append_right gone htrace

/-- **Every move of a checker gets something done**, if there is no trace that it gets stuck on. -/
theorem Move.work_lt (hmove : Move now (c, l1) (c', l1')) (hopen : c.Open) (hspan : 0 < span) :
    c'.work span (now + 1) + l1'.work (11 * span) (2 * span) (now + 1)
      < c.work span (now + 1) + l1.work (11 * span) (2 * span) (now + 1) := by
  cases hmove with
  | settle hpop _ _ =>
    simp only [work_settle, Link.work, Port.work_of_pop? hpop]
    omega
  | stall hpop hnone =>
    refine absurd hnone (hopen _ ?_)
    rw [Port.items_of_pop? hpop]
    exact List.mem_cons_self
  | @unresolved _ _ packet rest _ hpop _ _ =>
    have hle := work_unresolved span now packet.item { c with input := rest }
    rw [work_of_pop? hpop]
    omega
  | @ask _ _ packet rest access id tag slots hpop _ _ _ =>
    have hasked : (c.asked slots rest).work span (now + 1)
        = work span (now + 1) { c with input := rest } := rfl
    simp only [work_of_pop? hpop, hasked, Link.work, Link.request, Port.work_send]
    omega

/-- **A cycle of a checker advances**, unless no answer and no trace is visible. -/
theorem Sound.work_cycle (h : c.Sound (underway l1 + rest)) (hopen : c.Open) (hspan : 0 < span)
    (now : Nat) :
    Advances (l1.responses.pop? now = none ∧ c.input.pop? now = none)
      (c.work span (now + 1) + l1.work (11 * span) (2 * span) (now + 1))
      ((c.cycle now l1).state.1.work span (now + 1)
        + (c.cycle now l1).state.2.work (11 * span) (2 * span) (now + 1)) := by
  rcases h.takeResponse_cases now with ⟨hnone, heq⟩ | ⟨⟨c', l1'⟩, hmove, heq⟩
  · rw [cycle_of_takeResponse heq]
    rcases h.issue_cases now with ⟨hnone', heq'⟩ | ⟨next, hmove', heq'⟩
    · rw [heq']
      exact .of_eq rfl ⟨hnone, hnone'⟩
    · rw [heq']
      exact .of_lt (hmove'.work_lt hopen hspan)
  · have hless := hmove.work_lt hopen hspan
    rw [cycle_of_takeResponse heq]
    rcases (h.move hmove).issue_cases now with ⟨-, heq'⟩ | ⟨next, hmove', heq'⟩
    · rw [heq']
      exact .of_lt hless
    · rw [heq']
      exact .of_lt (Nat.lt_trans (hmove'.work_lt (hmove.open hopen) hspan) hless)

/-- A checker to which nothing is visible stays as it is. -/
theorem cycle_of_idle (hresponse : l1.responses.pop? now = none) (hinput : c.input.pop? now = none) :
    c.cycle now l1 = .ok (c, l1) := by
  have htake : c.takeResponse now l1 = .ok (c, l1) := by rw [takeResponse, hresponse]
  rw [cycle_of_takeResponse htake, issue, hinput]

end Checker

end BoundsCheck
