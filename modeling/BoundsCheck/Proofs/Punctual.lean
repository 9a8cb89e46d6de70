import Mathlib.Data.List.Induction
import BoundsCheck.Proofs.Counting
import BoundsCheck.Proofs.Lane
import BoundsCheck.Proofs.Relaying
import BoundsCheck.Proofs.Work

/-!
# Punctuality

The items of a port leave in the order they came in, so one that is visible could be held up behind
one that is not yet.  In a machine this never happens: whoever sends to a port does so with a delay
that never changes, and so what was sent first is visible first.  A switch with a single input is
the exception to be looked after, for it moves packets with the times they had.  It leaves none
behind, however, so that those it moves were all sent in the cycle that is under way.

* `Port.Steady` — the items of a port were sent one after the other, all with the same delay.
* `Machine.Punctual` — so were the items of all ports of a machine, each with a delay of its own.
* `Machine.Punctual.cycle` — a cycle keeps this.
* `Port.Unblocked` — no item of a port is held up behind another one.
* `Drive.never_held_up` — this holds of all ports of a machine in use.
-/

set_option autoImplicit false

namespace BoundsCheck

open Lookup

/-! ## Ports -/

namespace Port

variable {α : Type}

/-- The items were sent one after the other, all with the same delay, since the cycle `first` and
before the cycle `before`. -/
structure Steady (delay first before : Nat) (p : Port α) : Prop where
  ordered : p.packets.Pairwise fun packet next => packet.sent ≤ next.sent
  delayed : ∀ packet ∈ p.packets, packet.ready = packet.sent + delay
  since : ∀ packet ∈ p.packets, first ≤ packet.sent
  past : ∀ packet ∈ p.packets, packet.sent < before

variable {delay first before now : Nat} {p q : Port α}

theorem steady_default : ({} : Port α).Steady delay first before where
  ordered := .nil
  delayed _ hpacket := absurd hpacket List.not_mem_nil
  since _ hpacket := absurd hpacket List.not_mem_nil
  past _ hpacket := absurd hpacket List.not_mem_nil

/-- Time may go on. -/
theorem Steady.mono (h : p.Steady delay first before) {later : Nat} (hle : before ≤ later) :
    p.Steady delay first later :=
  ⟨h.ordered, h.delayed, h.since, fun packet hpacket => Nat.lt_of_lt_of_le (h.past packet hpacket) hle⟩

/-- Items may leave. -/
theorem Steady.of_sublist (h : p.Steady delay first before) (hsub : q.packets.Sublist p.packets) :
    q.Steady delay first before :=
  ⟨h.ordered.sublist hsub, fun packet hpacket => h.delayed packet (hsub.subset hpacket),
    fun packet hpacket => h.since packet (hsub.subset hpacket),
    fun packet hpacket => h.past packet (hsub.subset hpacket)⟩

theorem Steady.pop? (h : p.Steady delay first before) {packet : Packet α}
    (hpop : p.pop? now = some (packet, q)) : q.Steady delay first before := by
  refine h.of_sublist ?_
  rw [(pop?_eq_some_iff.mp hpop).1]
  exact List.sublist_cons_self _ _

theorem Steady.drain (h : p.Steady delay first before) (now : Nat) :
    (p.drain now).2.Steady delay first before :=
  h.of_sublist (List.dropWhile_sublist _)

/-- Items that were all sent in this cycle may join those that are under way. -/
theorem Steady.moveInto (h : p.Steady delay first (now + 1)) (hfirst : first ≤ now)
    (hq : q.Steady delay now (now + 1)) : (q.moveInto p).2.Steady delay first (now + 1) := by
  refine ⟨List.pairwise_append.mpr ⟨h.ordered, hq.ordered, fun packet hpacket next hnext => ?_⟩,
    fun packet hpacket => ?_, fun packet hpacket => ?_, fun packet hpacket => ?_⟩
  · have hpast := h.past packet hpacket
    have hsince := hq.since next hnext
    omega
  · rcases List.mem_append.mp hpacket with hpacket | hpacket
    · exact h.delayed packet hpacket
    · exact hq.delayed packet hpacket
  · rcases List.mem_append.mp hpacket with hpacket | hpacket
    · exact h.since packet hpacket
    · exact hfirst.trans (hq.since packet hpacket)
  · rcases List.mem_append.mp hpacket with hpacket | hpacket
    · exact h.past packet hpacket
    · exact hq.past packet hpacket

theorem Steady.sendAll (h : p.Steady delay first (now + 1)) (hfirst : first ≤ now)
    (items : List α) : (p.sendAll items delay now).Steady delay first (now + 1) := by
  have hnow : ∀ packet ∈ items.map (⟨·, now, now + delay⟩ : α → Packet α),
      packet.sent = now ∧ packet.ready = now + delay := by
    intro packet hpacket
    obtain ⟨item, -, rfl⟩ := List.mem_map.mp hpacket
    exact ⟨rfl, rfl⟩
  refine h.moveInto hfirst (q := ⟨items.map (⟨·, now, now + delay⟩)⟩)
    ⟨?_, fun packet hpacket => ?_, fun packet hpacket => ?_, fun packet hpacket => ?_⟩
  · exact List.pairwise_map.mpr (List.pairwise_of_forall fun _ _ => Nat.le_refl now)
  · rw [(hnow packet hpacket).1, (hnow packet hpacket).2]
  · exact (hnow packet hpacket).1.ge
  · exact Nat.lt_succ_of_le (hnow packet hpacket).1.le

theorem Steady.send (h : p.Steady delay first (now + 1)) (hfirst : first ≤ now) (item : α) :
    (p.send item delay now).Steady delay first (now + 1) :=
  h.sendAll hfirst [item]

end Port

/-! ## Components -/

variable {delay first since before now : Nat}

/-- Answers of the table are all sent with its latency. -/
theorem RangeTable.steady_cycle {t : RangeTable} (h : t.port.requests.Steady delay first (now + 1))
    (hresponses : t.port.responses.Steady t.latency.toNat since (now + 1)) (hsince : since ≤ now) :
    (t.cycle now).port.requests.Steady delay first (now + 1) ∧
      (t.cycle now).port.responses.Steady t.latency.toNat since (now + 1) := by
  rw [requests_cycle, responses_cycle]
  exact ⟨h.drain now, hresponses.sendAll hsince _⟩

namespace RangeCache

/-- All ports around a cache are steady.  Nothing is on its way to whoever asks since before the
cycle `first`, and nothing to the server below since before the cycle `since`. -/
structure Steady (asking answering first since before : Nat) (lower : Lookup.Link) (c : RangeCache) :
    Prop where
  requests : c.port.requests.Steady asking 0 before
  responses : c.port.responses.Steady c.config.hitLatency.toNat first before
  forwards : lower.requests.Steady c.config.forwardingLatency.toNat since before
  returns : lower.responses.Steady answering 0 before

variable {asking answering : Nat} {lower : Lookup.Link} {c : RangeCache}

theorem Steady.takeResponse (h : c.Steady asking answering first since (now + 1) lower)
    (hfirst : first ≤ now) :
    (c.takeResponse now lower).1.Steady asking answering first since (now + 1)
      (c.takeResponse now lower).2 := by
  rcases takeResponse_cases now lower c with ⟨-, heq⟩ | ⟨packet, rest, hpop, heq⟩
  · rw [heq]
    exact h
  · rw [heq]
    rcases fill_cases now packet.item c with ⟨-, hfill⟩ | ⟨reqs, misses, -, hfill⟩
    · rw [hfill]
      refine ⟨?_, ?_, ?_, h.returns.pop? hpop⟩
      · simpa using h.requests
      · simpa using h.responses
      · simpa using h.forwards
    · rw [hfill]
      refine ⟨?_, ?_, ?_, h.returns.pop? hpop⟩
      · simpa using h.requests
      · simpa using h.responses.sendAll hfirst (reqs.map (·.answer packet.item.entry))
      · simpa using h.forwards

theorem Steady.takeRequest (h : c.Steady asking answering first since (now + 1) lower)
    (hwf : c.misses.WellFormed) (hfirst : first ≤ now) (hsince : since ≤ now) :
    (c.takeRequest now lower).1.Steady asking answering first since (now + 1)
      (c.takeRequest now lower).2 := by
  rcases takeRequest_cases hwf now lower with ⟨-, heq⟩ | ⟨packet, rest, hpop, hcases⟩
  · rw [heq]
    exact h
  · have hrest := h.requests.pop? hpop
    rcases hcases with ⟨entry, -, heq⟩ | ⟨-, -, heq⟩ | ⟨-, -, heq⟩
    · rw [heq]
      exact ⟨hrest, h.responses.send hfirst _, h.forwards, h.returns⟩
    · rw [heq]
      exact ⟨hrest, h.responses, h.forwards, h.returns⟩
    · rw [heq]
      exact ⟨hrest, h.responses, h.forwards.send hsince _, h.returns⟩

/-- A cache sends all its answers with one delay, and all that it passes on with another. -/
theorem Steady.cycle (h : c.Steady asking answering first since (now + 1) lower)
    (hwf : c.misses.WellFormed) (hfirst : first ≤ now) (hsince : since ≤ now) :
    (c.cycle now lower).1.Steady asking answering first since (now + 1) (c.cycle now lower).2 := by
  have hcount : c.countWaiting.Steady asking answering first since (now + 1) lower :=
    ⟨h.requests, h.responses, h.forwards, h.returns⟩
  exact (hcount.takeResponse hfirst).takeRequest
    (wellFormed_takeResponse (c := c.countWaiting) hwf now lower) hfirst hsince

end RangeCache

/-! ### Switches -/

namespace Config

/-- The delay of requests on their way from the switch to the shared cache. -/
def relayDelay (c : Config) : Nat :=
  if c.cores.toNat = 1 then c.l1.forwardingLatency.toNat else c.switch.delay.toNat

/-- The delay of responses on their way from the switch to the cache of a core. -/
def returnDelay (c : Config) : Nat := if c.cores.toNat = 1 then c.l2.hitLatency.toNat else 1

/-- The cycle since which packets may wait for the switch.  A switch with a single input lets none
wait. -/
def waitingSince (c : Config) (now : Nat) : Nat := if c.cores.toNat = 1 then now else 0

theorem waitingSince_le (c : Config) (now : Nat) : c.waitingSince now ≤ now := by
  rw [waitingSince]
  split
  · exact Nat.le_refl now
  · exact Nat.zero_le now

end Config

variable {c : Config}

/-- All ports around a switch are steady. -/
structure Switch.Steady (c : Config) (first before : Nat) (s : Switch) (lower : Lookup.Link) :
    Prop where
  forwards : ∀ link ∈ s.inputs, link.requests.Steady c.l1.forwardingLatency.toNat first before
  returns : ∀ link ∈ s.inputs, link.responses.Steady c.returnDelay 0 before
  requests : lower.requests.Steady c.relayDelay 0 before
  responses : lower.responses.Steady c.l2.hitLatency.toNat first before

namespace Switch

variable {s : Switch} {lower : Lookup.Link}

/-- One of the links may be replaced by a steady one, and the link below as well. -/
theorem Steady.of_set (h : s.Steady c first before lower) {t : Switch} {link below : Lookup.Link}
    {input : Nat} (hset : t.inputs = s.inputs.set input link)
    (hforwards : link.requests.Steady c.l1.forwardingLatency.toNat first before)
    (hreturns : link.responses.Steady c.returnDelay 0 before)
    (hrequests : below.requests.Steady c.relayDelay 0 before)
    (hresponses : below.responses.Steady c.l2.hitLatency.toNat first before) :
    t.Steady c first before below := by
  refine ⟨fun other hother => ?_, fun other hother => ?_, hrequests, hresponses⟩
  · rw [hset] at hother
    rcases List.mem_or_eq_of_mem_set hother with hother | rfl
    · exact h.forwards other hother
    · exact hforwards
  · rw [hset] at hother
    rcases List.mem_or_eq_of_mem_set hother with hother | rfl
    · exact h.returns other hother
    · exact hreturns

/-- What a single input and the server have sent in this cycle is passed through at once. -/
theorem Steady.passThrough (h : s.Steady c now (now + 1) lower) (hone : c.cores.toNat = 1)
    (hinputs : s.inputs.length = 1) :
    (s.passThrough lower).1.Steady c (now + 1) (now + 1) (s.passThrough lower).2 := by
  obtain ⟨input, hinput⟩ := List.length_eq_one_iff.mp hinputs
  have hmem : input ∈ s.inputs := by simp [hinput]
  have hrequests := h.requests
  have hreturns := h.returns input hmem
  rw [Config.relayDelay, if_pos hone] at hrequests
  rw [Config.returnDelay, if_pos hone] at hreturns
  simp only [Switch.passThrough, hinput]
  refine ⟨fun link hlink => ?_, fun link hlink => ?_, ?_, Port.steady_default⟩
  · cases List.mem_singleton.mp hlink
    exact Port.steady_default
  · cases List.mem_singleton.mp hlink
    rw [Config.returnDelay, if_pos hone]
    exact hreturns.moveInto (Nat.zero_le now) h.responses
  · rw [Config.relayDelay, if_pos hone]
    exact hrequests.moveInto (Nat.zero_le now) (h.forwards input hmem)

/-- A switch between several inputs sends responses with one delay and requests with another. -/
theorem Move.steady {t : Switch} {link : Lookup.Link} (hmove : Move now (s, lower) (t, link))
    (hmany : c.cores.toNat ≠ 1) (hdelay : s.delay = c.switch.delay)
    (h : s.Steady c 0 (now + 1) lower) :
    t.delay = c.switch.delay ∧ t.Steady c 0 (now + 1) link := by
  refine ⟨?_, ?_⟩
  · cases hmove with
    | deliver => exact hdelay
    | forward => exact hdelay
  · cases hmove with
    | @deliver _ _ link packet rest hpop hlink =>
      have hmem := List.mem_of_getElem? hlink
      have hreturns := h.returns link hmem
      refine h.of_set rfl (h.forwards link hmem) ?_ h.requests (h.responses.pop? hpop)
      rw [Config.returnDelay, if_neg hmany] at hreturns ⊢
      exact hreturns.send (Nat.zero_le now) _
    | @forward _ _ link input packet rest arbiter hlink hpop hinputs =>
      have hmem := List.mem_of_getElem? hlink
      have hrequests := h.requests
      refine h.of_set rfl ((h.forwards link hmem).pop? hpop) (h.returns link hmem) ?_ h.responses
      rw [Config.relayDelay, if_neg hmany, ← hdelay] at hrequests ⊢
      exact hrequests.send (Nat.zero_le now) _

theorem Steady.moves {next : Switch × Lookup.Link}
    (hmoves : Relation.ReflTransGen (Move now) (s, lower) next) (hmany : c.cores.toNat ≠ 1)
    (hdelay : s.delay = c.switch.delay) (h : s.Steady c 0 (now + 1) lower) :
    next.1.Steady c 0 (now + 1) next.2 := by
  suffices hboth : next.1.delay = c.switch.delay ∧ next.1.Steady c 0 (now + 1) next.2 from hboth.2
  induction hmoves with
  | refl => exact ⟨hdelay, h⟩
  | tail _ hmove ih => exact hmove.steady hmany ih.1 ih.2

end Switch

/-! ### Cores -/

/-- All ports of a core are steady. -/
structure Core.Punctual (c : Config) (before : Nat) (core : Core) : Prop where
  input : core.checker.input.Steady 1 0 before
  output : core.checker.output.Steady 1 0 before
  requests : core.l1.port.requests.Steady 1 0 before
  responses : core.l1.port.responses.Steady c.l1.hitLatency.toNat 0 before

namespace Core

variable {core : Core}

/-- A checker sends everything for the next cycle. -/
theorem Punctual.checked (h : core.Punctual c (now + 1)) {next : Checker × Lookup.Link}
    (hmoves : Relation.ReflTransGen (Checker.Move now) (core.checker, core.l1.port) next) :
    (core.checked next).Punctual c (now + 1) := by
  induction hmoves with
  | refl => exact h
  | tail _ hmove ih =>
    obtain ⟨hinput, houtput, hrequests, hresponses⟩ := ih
    cases hmove with
    | settle hpop _ _ =>
      exact ⟨hinput, houtput.send (Nat.zero_le now) _, hrequests, hresponses.pop? hpop⟩
    | stall _ _ => exact ⟨hinput, houtput, hrequests, hresponses⟩
    | unresolved hpop _ _ =>
      refine ⟨?_, ?_, hrequests, hresponses⟩
      · simp only [Core.checked, Checker.unresolved]
        split
        · exact hinput.pop? hpop
        · exact hinput.pop? hpop
      · simp only [Core.checked, Checker.unresolved]
        split
        · exact houtput
        · exact houtput.send (Nat.zero_le now) _
    | ask hpop _ _ _ =>
      exact ⟨hinput.pop? hpop, houtput, hrequests.send (Nat.zero_le now) _, hresponses⟩

theorem Punctual.exchange (h : core.Punctual c (now + 1)) :
    (core.exchange now).Punctual c (now + 1) := by
  have houtput := h.output.drain now
  rw [Core.exchange]
  rcases (core.collect now).feed_cases now with ⟨-, heq⟩ | ⟨trace, rest, -, -, heq⟩
  · rw [heq]
    exact ⟨h.input, houtput, h.requests, h.responses⟩
  · rw [heq]
    exact ⟨h.input.send (Nat.zero_le now) trace, houtput, h.requests, h.responses⟩

theorem Punctual.mono (h : core.Punctual c before) {later : Nat} (hle : before ≤ later) :
    core.Punctual c later :=
  ⟨h.input.mono hle, h.output.mono hle, h.requests.mono hle, h.responses.mono hle⟩

end Core

/-! ## Machines -/

/-- All ports of a machine are steady, each with a delay of its own.  Packets wait for the switch
since the cycle `first` at the earliest. -/
structure Machine.Punctual (c : Config) (first before : Nat) (m : Machine) : Prop where
  cores : ∀ core ∈ m.cores, core.Punctual c before
  switch : m.switch.Steady c first before m.l2.port
  requests : m.table.port.requests.Steady c.l2.forwardingLatency.toNat 0 before
  responses : m.table.port.responses.Steady c.table.latency.toNat 0 before

namespace Machine

variable {resolver : Resolver} {m : Machine}

theorem Punctual.mono (h : m.Punctual c first before) {later : Nat} (hle : before ≤ later) :
    m.Punctual c first later :=
  ⟨fun core hcore => (h.cores core hcore).mono hle,
    ⟨fun link hlink => (h.switch.forwards link hlink).mono hle,
      fun link hlink => (h.switch.returns link hlink).mono hle, h.switch.requests.mono hle,
      h.switch.responses.mono hle⟩,
    h.requests.mono hle, h.responses.mono hle⟩

/-! ### The phases -/

theorem Punctual.cycleTable (h : m.Punctual c first (m.clock + 1)) (hs : m.Shaped c resolver) :
    m.cycleTable.Punctual c first (m.clock + 1) := by
  have hresponses := h.responses
  rw [← hs.latency] at hresponses
  obtain ⟨habove, hbelow⟩ := RangeTable.steady_cycle h.requests hresponses (Nat.zero_le m.clock)
  rw [hs.latency] at hbelow
  exact ⟨h.cores, h.switch, habove, hbelow⟩

theorem Punctual.cycleL2 (h : m.Punctual c first (m.clock + 1)) (hs : m.Shaped c resolver)
    (hwf : m.l2.misses.WellFormed) (hfirst : first ≤ m.clock) :
    m.cycleL2.Punctual c first (m.clock + 1) := by
  have hl2 : m.l2.Steady c.relayDelay c.table.latency.toNat first 0 (m.clock + 1) m.table.port := by
    refine ⟨h.switch.requests, ?_, ?_, h.responses⟩
    · rw [hs.l2]
      exact h.switch.responses
    · rw [hs.l2]
      exact h.requests
  obtain ⟨hrequests, hresponses, hforwards, hreturns⟩ := hl2.cycle hwf hfirst (Nat.zero_le m.clock)
  rw [RangeCache.config_cycle, hs.l2] at hresponses hforwards
  exact ⟨h.cores, ⟨h.switch.forwards, h.switch.returns, hrequests, hresponses⟩, hforwards, hreturns⟩

theorem Punctual.cycleL1s (h : m.Punctual c first (m.clock + 1)) (hs : m.Shaped c resolver)
    (hwf : ∀ core ∈ m.cores, core.l1.misses.WellFormed) (hfirst : first ≤ m.clock) :
    m.cycleL1s.Punctual c first (m.clock + 1) := by
  have hl1 : ∀ core ∈ m.cores, ∀ lower ∈ m.switch.inputs,
      (core.l1.cycle m.clock lower).1.port.requests.Steady 1 0 (m.clock + 1) ∧
        (core.l1.cycle m.clock lower).1.port.responses.Steady c.l1.hitLatency.toNat 0
          (m.clock + 1) ∧
        (core.l1.cycle m.clock lower).2.requests.Steady c.l1.forwardingLatency.toNat first
          (m.clock + 1) ∧
        (core.l1.cycle m.clock lower).2.responses.Steady c.returnDelay 0 (m.clock + 1) := by
    intro core hcore lower hlower
    obtain ⟨i, hi⟩ := List.getElem?_of_mem hcore
    have hconfig := (hs.cores i core hi).l1
    have hcore' := h.cores core hcore
    have hsteady : core.l1.Steady 1 c.returnDelay 0 first (m.clock + 1) lower := by
      refine ⟨hcore'.requests, ?_, ?_, h.switch.returns lower hlower⟩
      · rw [hconfig]
        exact hcore'.responses
      · rw [hconfig]
        exact h.switch.forwards lower hlower
    obtain ⟨hrequests, hresponses, hforwards, hreturns⟩ :=
      hsteady.cycle (hwf core hcore) (Nat.zero_le m.clock) hfirst
    rw [RangeCache.config_cycle, hconfig] at hresponses hforwards
    exact ⟨hrequests, hresponses, hforwards, hreturns⟩
  refine ⟨fun core' hcore' => ?_, ⟨fun link hlink => ?_, fun link hlink => ?_, h.switch.requests,
    h.switch.responses⟩, h.requests, h.responses⟩
  · obtain ⟨i, hi⟩ := List.getElem?_of_mem hcore'
    obtain ⟨core, lower, hcore, hlower, rfl, -⟩ := cores_cycleL1s hs.links hi
    have hmem := List.mem_of_getElem? hcore
    obtain ⟨hrequests, hresponses, -, -⟩ := hl1 core hmem lower (List.mem_of_getElem? hlower)
    exact ⟨(h.cores core hmem).input, (h.cores core hmem).output, hrequests, hresponses⟩
  · obtain ⟨core, hcore, lower, hlower, rfl⟩ := inputs_cycleL1s hs.links hlink
    exact (hl1 core hcore lower hlower).2.2.1
  · obtain ⟨core, hcore, lower, hlower, rfl⟩ := inputs_cycleL1s hs.links hlink
    exact (hl1 core hcore lower hlower).2.2.2

/-- **A switch keeps all ports around it steady**, be it with a single input or between several. -/
theorem Punctual.cycleSwitch (h : m.Punctual c (c.waitingSince m.clock) (m.clock + 1))
    (hm : m.Regular c resolver) (hfit : c.TagsFit) (hmode : m.BypassIfSingle c) :
    m.cycleSwitch.state.Punctual c (c.waitingSince (m.clock + 1)) (m.clock + 1) := by
  suffices hswitch : (m.switch.cycle m.clock m.l2.port).state.1.Steady c
      (c.waitingSince (m.clock + 1)) (m.clock + 1) (m.switch.cycle m.clock m.l2.port).state.2 from
    ⟨h.cores, hswitch, h.requests, h.responses⟩
  have hswitch := h.switch
  rw [BypassIfSingle, Switch.isBypass] at hmode
  by_cases hone : c.cores.toNat = 1
  · rw [decide_eq_true hone, beq_iff_eq] at hmode
    have hcycle : m.switch.cycle m.clock m.l2.port = .ok (m.switch.passThrough m.l2.port) := by
      rw [Switch.cycle, hmode]
    rw [Config.waitingSince, if_pos hone] at hswitch ⊢
    rw [hcycle]
    exact hswitch.passThrough hone (hm.shaped.switch.links.trans hone)
  · rw [decide_eq_false hone, beq_eq_false_iff_ne] at hmode
    obtain ⟨arbiter, harbiter⟩ : ∃ arbiter, m.switch.mode = .arbitrated arbiter := by
      rcases hm.shaped.switch.mode with ⟨hbypass, -⟩ | ⟨arbiter, harbiter, -⟩
      · exact absurd hbypass hmode
      · exact ⟨arbiter, harbiter⟩
    have hmoves := (hm.shaped.switch.cycle_moves harbiter hm.deliverable (hm.stampable hfit)
      m.clock).2
    rw [Config.waitingSince, if_neg hone] at hswitch ⊢
    exact Switch.Steady.moves hmoves hone hm.shaped.delay hswitch

theorem Punctual.withCores (h : m.Punctual c first before) {f : Core → Core}
    (hf : ∀ core ∈ m.cores, core.Punctual c before → (f core).Punctual c before) :
    ({ m with cores := m.cores.map f } : Machine).Punctual c first before := by
  refine ⟨fun core' hcore' => ?_, h.switch, h.requests, h.responses⟩
  obtain ⟨core, hcore, rfl⟩ := List.mem_map.mp hcore'
  exact hf core hcore (h.cores core hcore)

/-- **A cycle keeps all ports of a machine steady.** -/
theorem Punctual.cycle (h : m.Punctual c (c.waitingSince m.clock) m.clock)
    (hm : m.Regular c resolver) (hc : c.Accepted) (hfit : c.TagsFit) (hmode : m.BypassIfSingle c) :
    m.cycle.state.Punctual c (c.waitingSince m.cycle.state.clock) m.cycle.state.clock := by
  have hfirst := c.waitingSince_le m.clock
  have hserved := hm.cycleTable
  have hcached := hserved.cycleL2 hc
  have hlooked : m.looked.Punctual c (c.waitingSince m.clock) (m.clock + 1) :=
    (((h.mono (Nat.le_succ _)).cycleTable hm.shaped).cycleL2 hserved.shaped
      hserved.balanced.misses hfirst).cycleL1s hcached.shaped (fun core hcore => by
        obtain ⟨i, hi⟩ := List.getElem?_of_mem hcore
        exact (hcached.balanced.cores i core hi).misses) hfirst
  have hswitched : m.switched.Punctual c (c.waitingSince (m.clock + 1)) (m.clock + 1) :=
    hlooked.cycleSwitch (hm.looked hc) hfit hmode
  have hjudged : m.judged.Punctual c (c.waitingSince (m.clock + 1)) (m.clock + 1) :=
    hswitched.withCores fun core hcore hpunctual =>
      hpunctual.checked ((hm.switched hc hfit).2.moves hcore m.clock).2
  have hexchanged := hjudged.withCores (f := (·.exchange m.clock)) fun _ _ hpunctual =>
    hpunctual.exchange
  rw [hm.cycle_eq hc hfit]
  exact ⟨hexchanged.cores, hexchanged.switch, hexchanged.requests, hexchanged.responses⟩

/-! ### Calls -/

theorem punctual_reset (m : Machine) : m.reset.Punctual c first before := by
  refine ⟨fun core' hcore' => ?_, ⟨fun link hlink => ?_, fun link hlink => ?_, Port.steady_default,
    Port.steady_default⟩, Port.steady_default, Port.steady_default⟩
  · obtain ⟨core, -, rfl⟩ := List.mem_map.mp hcore'
    exact ⟨Port.steady_default, Port.steady_default, Port.steady_default, Port.steady_default⟩
  · obtain ⟨-, -, rfl⟩ := List.mem_map.mp hlink
    exact Port.steady_default
  · obtain ⟨-, -, rfl⟩ := List.mem_map.mp hlink
    exact Port.steady_default

theorem Punctual.push (h : m.Punctual c first before) (trace : Trace) :
    (m.push trace).state.Punctual c first before := by
  obtain ⟨core, hcore, heq⟩ | ⟨-, heq⟩ := m.push_cases trace
  · rw [heq]
    refine ⟨fun core' hcore' => ?_, h.switch, h.requests, h.responses⟩
    rcases List.mem_or_eq_of_mem_set hcore' with hcore' | rfl
    · exact h.cores core' hcore'
    · have hold := h.cores core (List.mem_of_getElem? hcore)
      exact ⟨hold.input, hold.output, hold.requests, hold.responses⟩
  · rw [heq]
    exact h

theorem clock_push (trace : Trace) (m : Machine) : (m.push trace).state.clock = m.clock := by
  obtain ⟨core, -, heq⟩ | ⟨-, heq⟩ := m.push_cases trace
  · rw [heq]
    rfl
  · rw [heq]
    rfl

/-- Whatever is asked of a regular machine, its ports stay steady. -/
theorem Punctual.call (h : m.Punctual c (c.waitingSince m.clock) m.clock)
    (hm : m.Regular c resolver) (hc : c.Accepted) (hfit : c.TagsFit) (hmode : m.BypassIfSingle c)
    (call : Call) :
    (m.call call).state.Punctual c (c.waitingSince (m.call call).state.clock)
      (m.call call).state.clock := by
  cases call with
  | push trace =>
    rw [Machine.call, clock_push]
    exact h.push trace
  | cycle => exact h.cycle hm hc hfit hmode
  | run limit =>
    refine (run_keeps (P := fun m => m.Regular c resolver ∧ m.BypassIfSingle c ∧
      m.Punctual c (c.waitingSince m.clock) m.clock) (fun m hm => ?_) limit m ⟨hm, hmode, h⟩).2.2
    obtain ⟨hregular, hbypass, hpunctual⟩ := hm
    exact ⟨hregular.cycle hc hfit, hbypass.cycle, hpunctual.cycle hregular hc hfit hbypass⟩
  | takeCompleted =>
    exact h.withCores fun _ _ hcore => ⟨hcore.input, hcore.output, hcore.requests, hcore.responses⟩
  | takeVerdicts =>
    exact h.withCores fun _ _ hcore => ⟨hcore.input, hcore.output, hcore.requests, hcore.responses⟩
  | reset => exact punctual_reset m

end Machine

/-! ## Nothing is held up -/

/-- No item of a port is held up behind another one: what was sent first is visible first. -/
structure Port.Unblocked {α : Type} (delay clock : Nat) (p : Port α) : Prop where
  /-- The items were sent one after the other. -/
  sent : p.packets.Pairwise fun packet next => packet.sent ≤ next.sent
  /-- They become visible one after the other. -/
  ready : p.packets.Pairwise fun packet next => packet.ready ≤ next.ready
  /-- All of them were sent with the same delay. -/
  delayed : ∀ packet ∈ p.packets, packet.ready = packet.sent + delay
  /-- All of them were sent in cycles that are over. -/
  past : ∀ packet ∈ p.packets, packet.sent < clock
  /-- If nothing is visible in front, then nothing is visible. -/
  front : ∀ now, p.front? now = none ↔ ∀ packet ∈ p.packets, ¬packet.ready ≤ now
  /-- All that is visible can be taken out. -/
  drained : ∀ now, (p.drain now).1 = p.packets.filter (·.ready ≤ now)

/-- Where packets become visible one after the other, those that are visible stand in front. -/
theorem Port.takeWhile_ready {α : Type} {packets : List (Packet α)}
    (h : packets.Pairwise fun packet next => packet.ready ≤ next.ready) (now : Nat) :
    packets.takeWhile (·.ready ≤ now) = packets.filter (·.ready ≤ now) := by
  induction packets with
  | nil => rfl
  | cons packet rest ih =>
    obtain ⟨hlater, hrest⟩ := List.pairwise_cons.mp h
    by_cases hvisible : packet.ready ≤ now
    · simp [hvisible, ih hrest]
    · have hhidden : ∀ next ∈ rest, now < next.ready := fun next hnext =>
        Nat.lt_of_lt_of_le (Nat.lt_of_not_le hvisible) (hlater next hnext)
      simpa [hvisible] using hhidden

theorem Port.Steady.unblocked {α : Type} {p : Port α} (h : p.Steady delay first before) :
    p.Unblocked delay before := by
  have hready : p.packets.Pairwise fun packet next => packet.ready ≤ next.ready := by
    refine h.ordered.imp_of_mem fun hpacket hnext hle => ?_
    rw [h.delayed _ hpacket, h.delayed _ hnext]
    exact Nat.add_le_add_right hle delay
  refine ⟨h.ordered, hready, h.delayed, h.past, fun now => ?_, takeWhile_ready hready⟩
  obtain ⟨_ | ⟨packet, rest⟩⟩ := p
  · simp [front?]
  · by_cases hvisible : packet.ready ≤ now
    · simp [front?, hvisible]
    · -- what comes later is visible later
      have hlater := (List.pairwise_cons.mp hready).1
      simp only [front?, if_neg hvisible, true_iff, List.forall_mem_cons]
      exact ⟨hvisible, fun next hnext hle => hvisible ((hlater next hnext).trans hle)⟩

/-- No packet is held up anywhere in a machine. -/
structure Machine.Unblocked (c : Config) (m : Machine) : Prop where
  /-- Traces are given to a checker, let go by it and looked up with a delay of one cycle, and the
  answers of its cache take the latency of a hit. -/
  cores : ∀ core ∈ m.cores,
    core.checker.input.Unblocked 1 m.clock ∧ core.checker.output.Unblocked 1 m.clock ∧
      core.l1.port.requests.Unblocked 1 m.clock ∧
      core.l1.port.responses.Unblocked c.l1.hitLatency.toNat m.clock
  /-- The caches of the cores pass lookups on with their latency, and the switch returns the
  answers with its own. -/
  inputs : ∀ link ∈ m.switch.inputs,
    link.requests.Unblocked c.l1.forwardingLatency.toNat m.clock ∧
      link.responses.Unblocked c.returnDelay m.clock
  /-- The switch relays lookups with its delay, and the answers of the shared cache take the latency
  of a hit. -/
  l2 : m.l2.port.requests.Unblocked c.relayDelay m.clock ∧
    m.l2.port.responses.Unblocked c.l2.hitLatency.toNat m.clock
  /-- The shared cache passes lookups on with its latency, and the table answers with its own. -/
  table : m.table.port.requests.Unblocked c.l2.forwardingLatency.toNat m.clock ∧
    m.table.port.responses.Unblocked c.table.latency.toNat m.clock

theorem Machine.Punctual.unblocked {m : Machine} (h : m.Punctual c first m.clock) :
    m.Unblocked c where
  cores core hcore :=
    have hports := h.cores core hcore
    ⟨hports.input.unblocked, hports.output.unblocked, hports.requests.unblocked,
      hports.responses.unblocked⟩
  inputs link hlink :=
    ⟨(h.switch.forwards link hlink).unblocked, (h.switch.returns link hlink).unblocked⟩
  l2 := ⟨h.switch.requests.unblocked, h.switch.responses.unblocked⟩
  table := ⟨h.requests.unblocked, h.responses.unblocked⟩

namespace Drive

/-- The ports of a machine in use are steady. -/
theorem punctual {m : Machine} (hnew : Machine.new c = .ok m) (hfit : c.TagsFit)
    (calls : List Call) :
    ((start m).after calls).machine.Punctual c
      (c.waitingSince ((start m).after calls).machine.clock)
      ((start m).after calls).machine.clock := by
  obtain ⟨hc, resolver, hresolver, rfl⟩ := Machine.of_new hnew
  induction calls using List.reverseRecOn with
  | nil =>
    show (Machine.fresh c resolver).Punctual c _ _
    rw [← Machine.reset_fresh]
    exact Machine.punctual_reset _
  | append_singleton calls call ih =>
    have hregular := regular hnew hresolver hfit calls
    have hmode := bypassIfSingle hnew calls
    rw [after_concat, machine_step]
    exact ih.call hregular hc hfit hmode call

/-- **No packet in a machine in use is held up behind another one**, whatever is asked of it. -/
theorem never_held_up {m : Machine} (hnew : Machine.new c = .ok m) (hfit : c.TagsFit)
    (calls : List Call) : ((start m).after calls).machine.Unblocked c :=
  (punctual hnew hfit calls).unblocked

/-- Two cores with slow caches and a slow switch: while the first core waits for the answer of the
table, both are given another trace. -/
theorem never_held_up_two_cores :
    let c : Config := { cores := 2, l1 := { hitLatency := 3 }, switch := { delay := 2 } }
    ∃ m, Machine.new c = .ok m ∧ c.TagsFit ∧
      ((start m).after [.push (.load 1 0xFEFFFFC8 4), .cycle, .cycle, .cycle, .cycle, .cycle,
        .push (.load 2 0xFEFFFFD0 4),
        .push { uuid := 3, coreId := 1, kind := .store, blocks := [[⟨0x8000A820, 4⟩]] },
        .run 9, .takeVerdicts]).machine.Unblocked c :=
  ⟨_, rfl, by decide, never_held_up rfl (by decide) _⟩

end Drive

end BoundsCheck
