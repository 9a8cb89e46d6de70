import BoundsCheck.Proofs.Build
import BoundsCheck.Proofs.Work

/-!
# Lookups are served in turn

Whenever the table works, it answers all lookups that are visible, so that none is visible any more.
A lookup that stands behind one that is not visible yet has to wait with it, and so the lookups that
have been answered are always the first that were sent.  Each got one answer, with the only entry for
its buffer or with the sentinel, and the counters tell how many got which and how long they waited.

* `RangeTable.Event`, `RangeTable.Bench` — a table by itself, with what was sent to it and when it
  took it off its port.
* `RangeTable.Answers` — the answer to a lookup.
* `RangeTable.Bench.Accounted` — the accounts of a table.
* `RangeTable.Bench.served_in_turn` — they are right after any events.
-/

set_option autoImplicit false

namespace BoundsCheck.RangeTable

open Lookup

/-! ## A table in use -/

/-- What happens to a table. -/
inductive Event
  /-- A lookup is sent to the table. -/
  | ask (req : Request) (delay now : Nat)
  /-- The table works. -/
  | cycle (now : Nat)
  /-- An answer is taken from the table, if one is visible. -/
  | collect (now : Nat)
deriving DecidableEq, Repr

/-- The cycle in which the table works. -/
def Event.cycle? : Event → Option Nat
  | .cycle now => some now
  | .ask _ _ _ | .collect _ => none

/-- A table, with what was sent to it and what it has served.  Lists begin with what came first. -/
structure Bench where
  table : RangeTable
  /-- The lookups that were sent to the table. -/
  asked : List (Packet Request) := []
  /-- The lookups that the table has taken off its port, each with the cycle in which it did. -/
  served : List (Packet Request × Nat) := []
  /-- The answers that were taken from the table. -/
  collected : List (Packet Response) := []

namespace Bench

/-- The lookups that are no longer on a port. -/
def departed (before after : Port Request) : List (Packet Request) :=
  before.packets.take (before.length - after.length)

/-- The bench after an event. -/
def step (b : Bench) : Event → Bench
  | .ask req delay now =>
    { b with
      table.port := b.table.port.request req delay now
      asked := b.asked ++ [⟨req, now, now + delay⟩] }
  | .cycle now =>
    { b with
      table := b.table.cycle now
      served := b.served
        ++ (departed b.table.port.requests (b.table.cycle now).port.requests).map (·, now) }
  | .collect now =>
    match b.table.port.responses.pop? now with
    | none => b
    | some (packet, rest) =>
      { b with
        table.port.responses := rest
        collected := b.collected ++ [packet] }

/-- The bench after several events. -/
def after (events : List Event) (b : Bench) : Bench := events.foldl step b

/-- All answers that the table has sent. -/
def answers (b : Bench) : List (Packet Response) := b.collected ++ b.table.port.responses.packets

end Bench

/-- The entry is the only one for the buffer, or the sentinel if there is none. -/
def IsEntryFor (entries : List RangeEntry) (id : BufferId) (entry : RangeEntry) : Prop :=
  (entry ∈ entries ∧ entry.bufferId = id ∧
      ∀ other ∈ entries, other.bufferId = id → other = entry) ∨
    (entry = .sentinel ∧ ∀ other ∈ entries, other.bufferId ≠ id)

/-- The answer to a lookup that was taken off the port in some cycle. -/
structure Answers (entries : List RangeEntry) (latency : Nat) (served : Packet Request × Nat)
    (answer : Packet Response) : Prop where
  /-- The answer repeats the lookup -/
  tag : answer.item.tag = served.1.item.tag
  uuid : answer.item.uuid = served.1.item.uuid
  addr : answer.item.addr = served.1.item.addr
  bufferId : answer.item.bufferId = served.1.item.bufferId
  /-- and brings its entry. -/
  entry : IsEntryFor entries served.1.item.bufferId answer.item.entry
  /-- It was sent in the same cycle. -/
  sent : answer.sent = served.2
  ready : answer.ready = served.2 + latency

/-- The accounts of a table. -/
structure Bench.Accounted (entries : List RangeEntry) (latency : Nat) (b : Bench) : Prop where
  /-- The lookups served are the first that were sent, in their order, and the others wait. -/
  asked : b.asked = b.served.map (·.1) ++ b.table.port.requests.packets
  /-- Each of them was answered once, in the same order. -/
  answers : List.Forall₂ (Answers entries latency) b.served b.answers
  /-- No answer is visible before one that was sent earlier. -/
  ordered : b.answers.Pairwise fun answer next => answer.ready ≤ next.ready
  /-- When the table has worked, no lookup is visible. -/
  emptied : ∀ now, (b.step (.cycle now)).table.port.requests.isEmpty now = true
  /-- No lookup was served before it was sent and visible. -/
  past : ∀ served ∈ b.served, served.1.sent ≤ served.2 ∧ served.1.ready ≤ served.2
  /-- The answers are counted, -/
  lookups : b.table.stats.lookups = b.answers.length
  /-- apart those that bring the sentinel, -/
  unknown : b.table.stats.unknownBufferIds = b.answers.countP (·.item.entry = .sentinel)
  /-- as all for the buffer do that is none, -/
  invalid : ∀ answer ∈ b.answers, answer.item.bufferId = invalidBuffer →
    answer.item.entry = .sentinel
  /-- and the cycles that the lookups have waited for. -/
  queueing : b.table.stats.queueingCycles
    = (b.served.map fun served => served.2 - served.1.sent).sum

/-! ## Entries -/

/-- A table that was built has entries for different buffers. -/
structure Sound (entries : List RangeEntry) : Prop where
  valid : ∀ entry ∈ entries, entry.bufferId ≠ invalidBuffer
  nodup : (entries.map (·.bufferId)).Nodup

variable {entries : List RangeEntry} {latency : UInt64} {t : RangeTable} {id : BufferId}

theorem Sound.isEntryFor (h : Sound entries) (hentries : t.entries = entries) (id : BufferId) :
    IsEntryFor entries id (t.answerFor id) := by
  have hget : t.get? id = entries.find? (·.bufferId == id) := by rw [get?, hentries]
  rcases hfind : entries.find? (·.bufferId == id) with _ | entry
  · rw [answerFor, hget, hfind]
    refine .inr ⟨rfl, fun other hother heq => ?_⟩
    exact List.find?_eq_none.mp hfind other hother (beq_iff_eq.mpr heq)
  · have hmem := List.mem_of_find?_eq_some hfind
    have hid : entry.bufferId = id := by
      have hfound := List.find?_some hfind
      exact beq_iff_eq.mp hfound
    rw [answerFor, hget, hfind]
    refine .inl ⟨hmem, hid, fun other hother heq => ?_⟩
    exact List.inj_on_of_nodup_map h.nodup hother hmem (heq.trans hid.symm)

/-- A lookup is answered with the sentinel exactly if the table does not know its buffer. -/
theorem Sound.answerFor_eq_sentinel_iff (h : Sound entries) (hentries : t.entries = entries) :
    t.answerFor id = .sentinel ↔ (t.get? id).isSome = false := by
  rw [answerFor]
  rcases hget : t.get? id with _ | entry
  · exact iff_of_true rfl rfl
  · refine iff_of_false (fun heq => ?_) (by simp)
    have hmem : entry ∈ entries := hentries ▸ List.mem_of_find?_eq_some hget
    exact h.valid entry hmem (congrArg RangeEntry.bufferId heq)

/-! ## Lookups and their answers -/

namespace Bench

/-- The answer that the table gives to a lookup. -/
def answerTo (t : RangeTable) (served : Packet Request × Nat) : Packet Response :=
  ⟨served.1.item.answer (t.answerFor served.1.item.bufferId), served.2,
    served.2 + t.latency.toNat⟩

/-- What always holds of a table in use. -/
structure Regular (entries : List RangeEntry) (latency : UInt64) (b : Bench) : Prop where
  entries : b.table.entries = entries
  latency : b.table.latency = latency
  asked : b.asked = b.served.map (·.1) ++ b.table.port.requests.packets
  answers : b.answers = b.served.map (answerTo b.table)
  /-- Nothing is visible before it was sent. -/
  delayed : ∀ packet ∈ b.asked, packet.sent ≤ packet.ready
  past : ∀ served ∈ b.served, served.1.ready ≤ served.2
  stats : b.table.stats = {
    lookups := b.served.length
    unknownBufferIds := b.served.countP fun served =>
      !(b.table.get? served.1.item.bufferId).isSome
    queueingCycles := (b.served.map fun served => served.2 - served.1.sent).sum }

variable {b : Bench}

/-- What a cycle takes off the port is what is visible in it. -/
theorem departed_drain (now : Nat) (p : Port Request) :
    departed p (p.drain now).2 = (p.drain now).1 := by
  rw [departed, Port.length, Port.length, p.packets_drain now, List.length_append,
    Nat.add_sub_cancel, List.take_left]

/-- Behind what is visible, the port begins with what is not. -/
theorem isEmpty_drain (now : Nat) (p : Port Request) : (p.drain now).2.isEmpty now = true := by
  have hfirst :=
    List.head?_dropWhile_not (fun packet : Packet Request => packet.ready ≤ now) p.packets
  rcases hpop : (p.drain now).2.pop? now with _ | ⟨packet, rest⟩
  · rw [Port.isEmpty_eq, hpop]
    rfl
  · obtain ⟨hpackets, hready⟩ := Port.pop?_eq_some_iff.mp hpop
    change p.packets.dropWhile (fun packet => packet.ready ≤ now) = packet :: rest.packets
      at hpackets
    rw [hpackets, List.head?_cons] at hfirst
    exact absurd hready (by simpa using hfirst)

/-- **A cycle serves all lookups that are visible.** -/
theorem Regular.cycle (h : b.Regular entries latency) (now : Nat) :
    (b.step (.cycle now)).Regular entries latency := by
  have hstats : (b.table.cycle now).stats = _ :=
    stats_foldl_serve now (b.table.port.requests.drain now).1
      { b.table with port := { b.table.port with requests := (b.table.port.requests.drain now).2 } }
  have hanswer : answerTo (b.table.cycle now) = answerTo b.table := by
    funext served
    simp only [answerTo, answerFor, get?, entries_cycle, latency_cycle]
  have hget : (b.table.cycle now).get? = b.table.get? := by
    funext id
    simp only [get?, entries_cycle]
  have hserved : (b.step (.cycle now)).served
      = b.served ++ (b.table.port.requests.drain now).1.map (·, now) := by
    show _ ++ (departed _ (b.table.cycle now).port.requests).map _ = _
    rw [requests_cycle, departed_drain]
  refine ⟨(entries_cycle now _).trans h.entries, (latency_cycle now _).trans h.latency, ?_, ?_,
    h.delayed, fun served hmem => ?_, ?_⟩
  · rw [hserved]
    show b.asked = _ ++ (b.table.cycle now).port.requests.packets
    rw [h.asked, requests_cycle, List.map_append, List.append_assoc,
      b.table.port.requests.packets_drain now, List.map_map]
    simp [Function.comp_def]
  · rw [hserved]
    show b.collected ++ (b.table.cycle now).port.responses.packets
      = List.map (answerTo (b.table.cycle now)) _
    have hbefore := h.answers
    rw [Bench.answers] at hbefore
    rw [hanswer, List.map_append, ← hbefore, responses_cycle, Port.sendAll, List.map_map,
      List.map_map, List.append_assoc]
    rfl
  · rw [hserved, List.mem_append] at hmem
    rcases hmem with hmem | hmem
    · exact h.past served hmem
    · obtain ⟨packet, hpacket, rfl⟩ := List.mem_map.mp hmem
      have hready := List.mem_takeWhile_imp hpacket
      rwa [decide_eq_true_eq] at hready
  · rw [hserved]
    show (b.table.cycle now).stats = {
      lookups := _
      unknownBufferIds := List.countP (fun served : Packet Request × Nat =>
        !((b.table.cycle now).get? served.1.item.bufferId).isSome) _
      queueingCycles := _ }
    rw [hstats, hget, List.length_append, List.countP_append, List.map_append, List.sum_append,
      List.length_map, List.countP_map, List.map_map, h.stats]
    rfl

theorem Regular.step (h : b.Regular entries latency) (event : Event) :
    (b.step event).Regular entries latency := by
  cases event with
  | ask req delay now =>
    refine ⟨h.entries, h.latency, ?_, h.answers, fun packet hpacket => ?_, h.past, h.stats⟩
    · show b.asked ++ [_] = _ ++ (b.table.port.requests.send req delay now).packets
      rw [h.asked, List.append_assoc]
      rfl
    · rcases List.mem_append.mp hpacket with hpacket | hpacket
      · exact h.delayed packet hpacket
      · rw [List.mem_singleton.mp hpacket]
        exact Nat.le_add_right now delay
  | cycle now => exact h.cycle now
  | collect now =>
    rw [Bench.step]
    split
    · exact h
    · rename_i packet rest hpop
      refine ⟨h.entries, h.latency, h.asked, ?_, h.delayed, h.past, h.stats⟩
      show (b.collected ++ [packet]) ++ rest.packets = b.served.map (answerTo b.table)
      rw [List.append_assoc, List.singleton_append, ← (Port.pop?_eq_some_iff.mp hpop).1]
      exact h.answers

theorem Regular.after (h : b.Regular entries latency) (events : List Event) :
    (b.after events).Regular entries latency := by
  induction events generalizing b with
  | nil => exact h
  | cons event events ih => exact ih (h.step event)

/-! ## Order -/

/-- If the table works in one cycle after the other, it serves its lookups in one cycle after the
other. -/
theorem ordered_after {events : List Event}
    (h : (b.served.map (·.2) ++ events.filterMap Event.cycle?).Pairwise (· ≤ ·)) :
    ((b.after events).served.map (·.2)).Pairwise (· ≤ ·) := by
  induction events generalizing b with
  | nil =>
    rw [List.filterMap_nil, List.append_nil] at h
    exact h
  | cons event rest ih =>
    refine ih ?_
    cases event with
    | ask req delay now => exact h
    | cycle now =>
      have hsplit : ((b.step (.cycle now)).served.map (·.2))
          = b.served.map (·.2)
            ++ (departed b.table.port.requests (b.table.cycle now).port.requests).map
              fun _ => now := by
        simp [Bench.step, Function.comp_def]
      rw [hsplit, List.map_const', List.append_assoc]
      change (b.served.map (·.2) ++ now :: rest.filterMap Event.cycle?).Pairwise _ at h
      obtain ⟨hserved, hrest, hbefore⟩ := List.pairwise_append.mp h
      obtain ⟨hnow, hrest⟩ := List.pairwise_cons.mp hrest
      refine List.pairwise_append.mpr ⟨hserved, List.pairwise_append.mpr ⟨?_, hrest, ?_⟩, ?_⟩
      · exact List.pairwise_replicate.mpr (.inr (Nat.le_refl now))
      · intro cycle hcycle later hlater
        rw [List.eq_of_mem_replicate hcycle]
        exact hnow later hlater
      · intro cycle hcycle later hlater
        rcases List.mem_append.mp hlater with hlater | hlater
        · rw [List.eq_of_mem_replicate hlater]
          exact hbefore cycle hcycle now List.mem_cons_self
        · exact hbefore cycle hcycle later (List.mem_cons_of_mem _ hlater)
    | collect now =>
      have hsame : (b.step (.collect now)).served = b.served := by
        rw [Bench.step]
        split <;> rfl
      rwa [hsame]

/-! ## The accounts -/

/-- Nothing that has been sent to a table in use is served before it is sent. -/
theorem Regular.sent_le (h : b.Regular entries latency) {served : Packet Request × Nat}
    (hmem : served ∈ b.served) : served.1.sent ≤ served.2 := by
  have hasked : served.1 ∈ b.asked := by
    rw [h.asked]
    exact List.mem_append_left _ (List.mem_map_of_mem hmem)
  exact (h.delayed _ hasked).trans (h.past _ hmem)

/-- The answer that the table gives is the right one. -/
theorem Regular.answers_answerTo (h : b.Regular entries latency) (hsound : Sound entries)
    (served : Packet Request × Nat) :
    Answers entries latency.toNat served (answerTo b.table served) where
  tag := rfl
  uuid := rfl
  addr := rfl
  bufferId := rfl
  entry := hsound.isEntryFor h.entries _
  sent := rfl
  ready := by rw [answerTo, h.latency]

/-- A table in use has right accounts, if it has worked in one cycle after the other. -/
theorem Regular.accounted (h : b.Regular entries latency) (hsound : Sound entries)
    (hordered : (b.served.map (·.2)).Pairwise (· ≤ ·)) : b.Accounted entries latency.toNat where
  asked := h.asked
  answers := by
    rw [h.answers, List.forall₂_map_right_iff]
    exact List.forall₂_same.mpr fun served _ => h.answers_answerTo hsound served
  ordered := by
    rw [h.answers, List.pairwise_map]
    exact (List.pairwise_map.mp hordered).imp fun hle => Nat.add_le_add_right hle _
  emptied now := by
    show (b.table.cycle now).port.requests.isEmpty now = true
    rw [requests_cycle]
    exact isEmpty_drain now _
  past served hmem := ⟨h.sent_le hmem, h.past served hmem⟩
  lookups := by rw [h.stats, h.answers, List.length_map]
  unknown := by
    rw [h.stats, h.answers, List.countP_map]
    refine List.countP_congr fun served _ => ?_
    rw [Function.comp_apply, decide_eq_true_eq, Bool.not_eq_true']
    exact (hsound.answerFor_eq_sentinel_iff h.entries).symm
  invalid answer hmem hid := by
    rw [h.answers] at hmem
    obtain ⟨served, -, rfl⟩ := List.mem_map.mp hmem
    rcases hsound.isEntryFor h.entries served.1.item.bufferId with ⟨hentry, heq, -⟩ | ⟨heq, -⟩
    · exact absurd (heq.trans hid) (hsound.valid _ hentry)
    · exact heq
  queueing := by rw [h.stats]

end Bench

/-- The table that was built, and what its entries are. -/
theorem of_new (h : new entries latency = .ok t) :
    t = ⟨entries, latency, {}, {}⟩ ∧ Sound entries := by
  obtain ⟨heq, hvalid, hnodup⟩ := of_ofConfig (c := { entries, latency }) h
  exact ⟨heq, hvalid, hnodup⟩

/-- **A table serves its lookups in turn.**  Whatever is sent to a table and taken from it, as long
as it works in one cycle after the other: what it has answered are the first of its lookups, each
once and in their order, with the only entry for the buffer or the sentinel, in time.  Nothing is
visible when it has worked, no answer is visible before an earlier one, and the counters say how
many lookups were answered, how many of them with the sentinel, and how long they had waited. -/
theorem Bench.served_in_turn (hnew : new entries latency = .ok t) (events : List Event)
    (hcycles : (events.filterMap Event.cycle?).Pairwise (· ≤ ·)) :
    (({ table := t } : Bench).after events).Accounted entries latency.toNat := by
  obtain ⟨rfl, hsound⟩ := of_new hnew
  have hregular : Bench.Regular entries latency { table := ⟨entries, latency, {}, {}⟩ } :=
    ⟨rfl, rfl, rfl, rfl, fun _ hmem => absurd hmem List.not_mem_nil,
      fun _ hmem => absurd hmem List.not_mem_nil, rfl⟩
  exact (hregular.after events).accounted hsound (ordered_after hcycles)

/-- The lookup for the buffer 1 would be visible from the cycle 1 on, but stands behind one for the
buffer 2, which nobody knows, and waits until the cycle 4. -/
theorem Bench.served_in_turn_behind_the_first :
    let table : RangeTable := ⟨[⟨1, 0x1000, 64, false, 0⟩], 2, {}, {}⟩
    let events : List Event :=
      [.ask ⟨0x1000, 2, 0, 10⟩ 4 0, .ask ⟨0x1008, 1, 1, 11⟩ 1 0, .cycle 1, .cycle 4,
        .ask ⟨0x1010, 1, 2, 12⟩ 1 4, .collect 6]
    new table.entries table.latency = .ok table ∧
      (({ table } : Bench).after events).served
        = [(⟨⟨0x1000, 2, 0, 10⟩, 0, 4⟩, 4), (⟨⟨0x1008, 1, 1, 11⟩, 0, 1⟩, 4)] ∧
      (({ table } : Bench).after events).table.stats = ⟨2, 1, 8⟩ ∧
      (({ table } : Bench).after events).Accounted table.entries table.latency.toNat := by
  intro table events
  have hcycles : (events.filterMap Event.cycle?).Pairwise (· ≤ ·) := by decide
  exact ⟨rfl, rfl, rfl, Bench.served_in_turn rfl events hcycles⟩

end BoundsCheck.RangeTable
