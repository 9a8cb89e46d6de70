import Mathlib.Algebra.Order.Group.Multiset
import Mathlib.Data.List.TakeWhile
import Mathlib.Tactic.Abel
import BoundsCheck.Lookup

/-!
# What is under way

A lookup that is under way is either still a question, on its way to a server, or already an
answer, on its way back.  An answer repeats its question, so both can be counted as questions, and
most components then only move lookups: what is under way on a link before a cycle is under way
somewhere else after it.

* `Port.items` — what a port holds, without the times.
* `Lookup.underway` — all lookups on a link, as a multiset of questions.
* `Port.Timely` — every item becomes visible after the cycle it was sent in.
* `Lookup.Answers` — every answer on a link brings the entry that a given function names.
-/

set_option autoImplicit false

namespace BoundsCheck

/-! ## Items of a port -/

namespace Port

variable {α : Type}

/-- What is under way on a port, the next item to leave first. -/
def items (p : Port α) : List α := p.packets.map (·.item)

@[simp] theorem items_send (item : α) (delay now : Nat) (p : Port α) :
    (p.send item delay now).items = p.items ++ [item] := by
  simp [items, send]

@[simp] theorem items_sendAll (items : List α) (delay now : Nat) (p : Port α) :
    (p.sendAll items delay now).items = p.items ++ items := by
  simp [Port.items, sendAll, Function.comp_def]

theorem length_items (p : Port α) : p.items.length = p.length := by
  simp [items, length]

theorem hasPending_eq_false_iff (p : Port α) : p.hasPending = false ↔ p.items = [] := by
  simp [hasPending, items]

theorem pop?_eq_some_iff {p rest : Port α} {now : Nat} {packet : Packet α} :
    p.pop? now = some (packet, rest) ↔ p.packets = packet :: rest.packets ∧ packet.ready ≤ now := by
  obtain ⟨packets⟩ := p
  obtain ⟨others⟩ := rest
  cases packets with
  | nil => simp [pop?]
  | cons first others' =>
    simp only [pop?, Option.ite_none_right_eq_some, Option.some.injEq, Prod.mk.injEq,
      Port.mk.injEq, List.cons.injEq]
    grind

theorem items_of_pop? {p rest : Port α} {now : Nat} {packet : Packet α}
    (h : p.pop? now = some (packet, rest)) : p.items = packet.item :: rest.items := by
  rw [items, (pop?_eq_some_iff.mp h).1, List.map_cons, items]

theorem length_of_pop? {p rest : Port α} {now : Nat} {packet : Packet α}
    (h : p.pop? now = some (packet, rest)) : p.length = rest.length + 1 := by
  rw [← length_items, items_of_pop? h, List.length_cons, length_items]

/-- What is in front is what can be taken. -/
theorem front?_eq (now : Nat) (p : Port α) : p.front? now = (p.pop? now).map (·.1.item) := by
  obtain ⟨_ | ⟨packet, rest⟩⟩ := p
  · rfl
  · by_cases hready : packet.ready ≤ now
    · simp [front?, pop?, hready]
    · simp [front?, pop?, hready]

theorem isEmpty_eq (now : Nat) (p : Port α) : p.isEmpty now = (p.pop? now).isNone := by
  rw [isEmpty, front?_eq, Option.isNone_map]

/-- What is drained is what was in front, and the rest stays. -/
theorem packets_drain (now : Nat) (p : Port α) :
    p.packets = (p.drain now).1 ++ (p.drain now).2.packets :=
  (List.takeWhile_append_dropWhile ..).symm

theorem items_drain (now : Nat) (p : Port α) :
    p.items = (p.drain now).1.map (·.item) ++ (p.drain now).2.items := by
  rw [items, p.packets_drain now, List.map_append, items]

@[simp] theorem items_moveInto_fst (source target : Port α) :
    (source.moveInto target).1.items = [] := rfl

@[simp] theorem items_moveInto_snd (source target : Port α) :
    (source.moveInto target).2.items = target.items ++ source.items := by
  simp [items, moveInto]

/-! ## Times of a port -/

/-- Every item becomes visible only after the cycle it was sent in. -/
def Timely (p : Port α) : Prop := ∀ packet ∈ p.packets, packet.sent < packet.ready

theorem timely_default : ({} : Port α).Timely := by
  intro packet h
  cases h

theorem Timely.send {p : Port α} (h : p.Timely) (item : α) {delay : Nat} (hdelay : delay ≠ 0)
    (now : Nat) : (p.send item delay now).Timely := by
  intro packet hmem
  rw [Port.send, List.mem_append, List.mem_singleton] at hmem
  rcases hmem with hmem | rfl
  · exact h packet hmem
  · show now < now + delay
    omega

theorem Timely.pop? {p rest : Port α} {now : Nat} {packet : Packet α} (h : p.Timely)
    (hpop : p.pop? now = some (packet, rest)) : rest.Timely := by
  intro other hmem
  refine h other ?_
  rw [(pop?_eq_some_iff.mp hpop).1]
  exact List.mem_cons_of_mem _ hmem

/-- An item that can be taken out of a timely port was sent in an earlier cycle. -/
theorem Timely.sent_lt {p rest : Port α} {now : Nat} {packet : Packet α} (h : p.Timely)
    (hpop : p.pop? now = some (packet, rest)) : packet.sent < now := by
  obtain ⟨heq, hready⟩ := pop?_eq_some_iff.mp hpop
  have hsent := h packet (by rw [heq]; exact List.mem_cons_self)
  omega

/-- So were all items that can be drained. -/
theorem Timely.sent_lt_of_mem_drain {p : Port α} {now : Nat} {packet : Packet α} (h : p.Timely)
    (hmem : packet ∈ (p.drain now).1) : packet.sent < now := by
  have hready := List.mem_takeWhile_imp hmem
  have hsent := h packet (List.takeWhile_subset _ hmem)
  rw [decide_eq_true_eq] at hready
  omega

theorem Timely.drain {p : Port α} (h : p.Timely) (now : Nat) : (p.drain now).2.Timely :=
  fun packet hmem => h packet (List.dropWhile_subset _ hmem)

theorem Timely.moveInto {source target : Port α} (hs : source.Timely) (ht : target.Timely) :
    (source.moveInto target).2.Timely := by
  intro packet hmem
  rcases List.mem_append.mp hmem with hmem | hmem
  · exact ht packet hmem
  · exact hs packet hmem

end Port

/-! ## Lookups on a link -/

namespace Lookup

/-- The question that an answer repeats. -/
def Response.question (rsp : Response) : Request := ⟨rsp.addr, rsp.bufferId, rsp.tag, rsp.uuid⟩

@[simp] theorem question_answer (req : Request) (entry : RangeEntry) :
    (req.answer entry).question = req := rfl

/-- The lookups on a link: its questions, and those that its answers repeat. -/
def underway (l : Link) : Multiset Request :=
  ↑l.requests.items + ↑(l.responses.items.map Response.question)

@[simp] theorem underway_request (l : Link) (req : Request) (delay now : Nat) :
    underway (l.request req delay now) = underway l + {req} := by
  simp only [underway, Link.request, Port.items_send, ← Multiset.coe_add, Multiset.coe_singleton]
  abel

@[simp] theorem underway_respond (l : Link) (rsp : Response) (delay now : Nat) :
    underway (l.respond rsp delay now) = underway l + {rsp.question} := by
  simp only [underway, Link.respond, Port.items_send, List.map_append, List.map_cons, List.map_nil,
    ← Multiset.coe_add, Multiset.coe_singleton]
  abel

/-- A question that is taken off a link was under way on it. -/
theorem underway_of_pop?_requests {l : Link} {now : Nat} {packet : Packet Request}
    {rest : Port Request} (h : l.requests.pop? now = some (packet, rest)) :
    underway l = {packet.item} + underway { l with requests := rest } := by
  simp only [underway, Port.items_of_pop? h, ← Multiset.cons_coe, ← Multiset.singleton_add]
  abel

/-- An answer that is taken off a link was under way on it. -/
theorem underway_of_pop?_responses {l : Link} {now : Nat} {packet : Packet Response}
    {rest : Port Response} (h : l.responses.pop? now = some (packet, rest)) :
    underway l = {packet.item.question} + underway { l with responses := rest } := by
  simp only [underway, Port.items_of_pop? h, List.map_cons, ← Multiset.cons_coe,
    ← Multiset.singleton_add]
  abel

theorem mem_underway_of_pop?_responses {l : Link} {now : Nat} {packet : Packet Response}
    {rest : Port Response} (h : l.responses.pop? now = some (packet, rest)) :
    packet.item.question ∈ underway l := by
  rw [underway_of_pop?_responses h]
  exact Multiset.mem_add.mpr (.inl (Multiset.mem_singleton_self _))

theorem mem_underway_of_pop?_requests {l : Link} {now : Nat} {packet : Packet Request}
    {rest : Port Request} (h : l.requests.pop? now = some (packet, rest)) :
    packet.item ∈ underway l := by
  rw [underway_of_pop?_requests h]
  exact Multiset.mem_add.mpr (.inl (Multiset.mem_singleton_self _))

/-- A link with nothing pending has no lookup under way. -/
theorem underway_eq_zero_of_not_hasPending {l : Link} (h : l.hasPending = false) :
    underway l = 0 := by
  rw [Link.hasPending, Bool.or_eq_false_iff, Port.hasPending_eq_false_iff,
    Port.hasPending_eq_false_iff] at h
  simp [underway, h.1, h.2]

/-! ## Entries on a link -/

/-- Every answer on the link brings the entry that `f` names for the buffer in question. -/
def Answers (f : BufferId → RangeEntry) (l : Link) : Prop :=
  ∀ rsp ∈ l.responses.items, rsp.entry = f rsp.bufferId

variable {f : BufferId → RangeEntry} {l : Link}

theorem answers_default : Answers f {} := by
  intro rsp h
  cases h

theorem Answers.request (h : Answers f l) (req : Request) (delay now : Nat) :
    Answers f (l.request req delay now) := h

theorem Answers.respond (h : Answers f l) {rsp : Response} (hrsp : rsp.entry = f rsp.bufferId)
    (delay now : Nat) : Answers f (l.respond rsp delay now) := by
  intro other hmem
  rw [Link.respond, Port.items_send, List.mem_append, List.mem_singleton] at hmem
  rcases hmem with hmem | rfl
  · exact h other hmem
  · exact hrsp

/-- The answer taken off the link brings the named entry, and so do those that stay. -/
theorem Answers.pop? {now : Nat} {packet : Packet Response} {rest : Port Response}
    (h : Answers f l) (hpop : l.responses.pop? now = some (packet, rest)) :
    packet.item.entry = f packet.item.bufferId ∧ Answers f { l with responses := rest } := by
  have hitems := Port.items_of_pop? hpop
  refine ⟨h _ ?_, fun rsp hmem => h rsp ?_⟩
  · rw [hitems]; exact List.mem_cons_self
  · rw [hitems]; exact List.mem_cons_of_mem _ hmem

end Lookup

end BoundsCheck
