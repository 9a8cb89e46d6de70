import BoundsCheck.Proofs.Phases
import BoundsCheck.Proofs.Relaying

/-!
# Shifting time

Nothing in a machine depends on when it happens, only on how much later it happens than something
else.  If the clock of a machine is put forward, and with it the times of all packets under way and
of all verdicts, then whatever is asked of the machine ends as before, with all times moved.  This
is shown for one operation after the other: each commutes with putting forward the clock.

* `Port.later`, `RangeCache.later`, …, `Machine.later` — a part of a machine, with all times moved.
* `Machine.cycle_later` — a cycle does the same, only later.
* `Machine.report_later` — of all counters only the number of cycles tells the time.
* `Machine.call_later` — whatever is asked of a machine, except for a reset, ends the same way.
-/

set_option autoImplicit false

namespace BoundsCheck

open Lookup

variable {k now : Nat}

/-! ## Outcomes -/

/-- A change of state may come before or after a step that it commutes with. -/
theorem Outcome.andThen_map {ε σ τ : Type} {o : Outcome ε σ} {f : σ → τ}
    {next : σ → Outcome ε σ} {next' : τ → Outcome ε τ} (h : ∀ s, next' (f s) = (next s).map f) :
    (o.map f).andThen next' = (o.andThen next).map f := by
  rcases o with ⟨state, _ | error⟩
  · exact h state
  · rfl

/-! ## Ports -/

namespace Packet

variable {α : Type}

/-- The packet sent and visible `k` cycles later. -/
def later (k : Nat) (packet : Packet α) : Packet α :=
  { packet with sent := packet.sent + k, ready := packet.ready + k }

end Packet

namespace Port

variable {α : Type} {p : Port α}

/-- The port with everything `k` cycles later. -/
def later (k : Nat) (p : Port α) : Port α := ⟨p.packets.map (.later k)⟩

@[simp] theorem length_later (k : Nat) (p : Port α) : (p.later k).length = p.length :=
  List.length_map _

@[simp] theorem hasPending_later (k : Nat) (p : Port α) :
    (p.later k).hasPending = p.hasPending := by
  simp [later, hasPending]

@[simp] theorem pop?_later (k now : Nat) (p : Port α) :
    (p.later k).pop? (now + k) = (p.pop? now).map (Prod.map (.later k) (later k)) := by
  obtain ⟨_ | ⟨packet, rest⟩⟩ := p
  · rfl
  · by_cases hready : packet.ready ≤ now
    · simp [later, pop?, hready, Packet.later]
    · simp [later, pop?, hready, Packet.later]

@[simp] theorem isEmpty_later (k now : Nat) (p : Port α) :
    (p.later k).isEmpty (now + k) = p.isEmpty now := by
  simp [isEmpty_eq]

@[simp] theorem drain_later (k now : Nat) (p : Port α) :
    (p.later k).drain (now + k) = Prod.map (List.map (.later k)) (later k) (p.drain now) := by
  have hready : (fun packet : Packet α => decide (packet.ready ≤ now + k)) ∘ Packet.later k
      = fun packet => decide (packet.ready ≤ now) := by
    funext packet
    simp [Packet.later]
  simp [drain, later, List.takeWhile_map, List.dropWhile_map, hready]

@[simp] theorem send_later (item : α) (delay k now : Nat) (p : Port α) :
    (p.later k).send item delay (now + k) = (p.send item delay now).later k := by
  simp [later, send, Packet.later, Nat.add_right_comm]

@[simp] theorem sendAll_later (items : List α) (delay k now : Nat) (p : Port α) :
    (p.later k).sendAll items delay (now + k) = (p.sendAll items delay now).later k := by
  simp [later, sendAll, Packet.later, Nat.add_right_comm]

@[simp] theorem moveInto_later (k : Nat) (source target : Port α) :
    (source.later k).moveInto (target.later k)
      = Prod.map (later k) (later k) (source.moveInto target) := by
  simp [later, moveInto, empty]

end Port

namespace Link

variable {α β : Type}

/-- The link with everything `k` cycles later. -/
def later (k : Nat) (l : Link α β) : Link α β := ⟨l.requests.later k, l.responses.later k⟩

@[simp] theorem later_empty (k : Nat) : ({} : Link α β).later k = {} := rfl

@[simp] theorem requests_later (k : Nat) (l : Link α β) :
    (l.later k).requests = l.requests.later k := rfl

@[simp] theorem responses_later (k : Nat) (l : Link α β) :
    (l.later k).responses = l.responses.later k := rfl

@[simp] theorem hasPending_later (k : Nat) (l : Link α β) :
    (l.later k).hasPending = l.hasPending := by
  simp [hasPending]

@[simp] theorem request_later (item : α) (delay k now : Nat) (l : Link α β) :
    (l.later k).request item delay (now + k) = (l.request item delay now).later k := by
  simp [request, later]

@[simp] theorem respond_later (item : β) (delay k now : Nat) (l : Link α β) :
    (l.later k).respond item delay (now + k) = (l.respond item delay now).later k := by
  simp [respond, later]

end Link

/-! ## The table -/

namespace RangeTable

/-- The table with everything `k` cycles later. -/
def later (k : Nat) (t : RangeTable) : RangeTable := { t with port := t.port.later k }

theorem serve_later (t : RangeTable) (packet : Packet Request) :
    serve (now + k) (t.later k) (packet.later k) = (serve now t packet).later k := by
  have hcount : (t.later k).count (now + k) (packet.later k) = t.count now packet := by
    simp [count, later, Packet.later, get?, Nat.add_sub_add_right]
  simp only [serve, hcount]
  simp [later, Packet.later, answerFor, get?]

theorem foldl_serve_later (packets : List (Packet Request)) (t : RangeTable) :
    (packets.map (.later k)).foldl (serve (now + k)) (t.later k)
      = (packets.foldl (serve now) t).later k := by
  induction packets generalizing t with
  | nil => rfl
  | cons packet packets ih =>
    rw [List.map_cons, List.foldl_cons, List.foldl_cons, serve_later, ih]

/-- The table answers as before. -/
theorem cycle_later (t : RangeTable) : (t.later k).cycle (now + k) = (t.cycle now).later k := by
  have hdrain : (t.later k).port.requests.drain (now + k) = _ := t.port.requests.drain_later k now
  rw [cycle, cycle, hdrain]
  exact foldl_serve_later _ { t with port := { t.port with requests := _ } }

end RangeTable

/-! ## Caches -/

namespace RangeCache

variable {c : RangeCache} {lower : Lookup.Link}

/-- The cache with everything `k` cycles later. -/
def later (k : Nat) (c : RangeCache) : RangeCache := { c with port := c.port.later k }

@[simp] theorem busy_later (k : Nat) (c : RangeCache) : (c.later k).busy = c.busy := by
  simp [busy, later]

theorem keep_later (rsp : Response) (c : RangeCache) :
    (c.later k).keep rsp = (c.keep rsp).later k := by
  rw [keep, keep]
  split
  · rfl
  · rfl

theorem fill_later (rsp : Response) (c : RangeCache) :
    (c.later k).fill (now + k) rsp = (c.fill now rsp).later k := by
  have hmisses : ((c.keep rsp).later k).misses = (c.keep rsp).misses := rfl
  rw [fill, fill, keep_later, answerWaiting, answerWaiting, hmisses]
  rcases (c.keep rsp).misses.take? rsp.bufferId with _ | ⟨waiting, misses⟩
  · rfl
  · simp [later, Link.later]

theorem access_later (req : Request) (lower : Lookup.Link) (c : RangeCache) :
    (c.later k).access (now + k) req (lower.later k)
      = Prod.map (later k) (.later k) (c.access now req lower) := by
  have hlines : (c.later k).lines = c.lines := rfl
  have hmisses : (c.later k).misses = c.misses := rfl
  rw [access, access, hlines, hmisses]
  rcases c.lines.get? req.bufferId with _ | entry
  · by_cases hmerges : c.misses.merges req = true
    · simp only [if_pos hmerges]
      rfl
    · simp only [if_neg hmerges, Prod.map_apply, ← Link.request_later]
      rfl
  · simp [hit, later]

theorem takeResponse_later (lower : Lookup.Link) (c : RangeCache) :
    (c.later k).takeResponse (now + k) (lower.later k)
      = Prod.map (later k) (.later k) (c.takeResponse now lower) := by
  rcases hpop : lower.responses.pop? now with _ | ⟨packet, rest⟩
  · simp [takeResponse, hpop]
  · simp [takeResponse, hpop, Packet.later, fill_later, Link.later]

theorem takeRequest_later (lower : Lookup.Link) (c : RangeCache) :
    (c.later k).takeRequest (now + k) (lower.later k)
      = Prod.map (later k) (.later k) (c.takeRequest now lower) := by
  have hpop_later : (c.later k).port.requests.pop? (now + k)
      = (c.port.requests.pop? now).map (Prod.map (.later k) (.later k)) :=
    c.port.requests.pop?_later k now
  rcases hpop : c.port.requests.pop? now with _ | ⟨packet, rest⟩
  · simp [takeRequest, hpop, hpop_later]
  · have htaken : (c.later k).taken (now + k) (packet.later k) (rest.later k)
        = (c.taken now packet rest).later k := by
      simp [taken, countRead, later, Packet.later, Link.later, Nat.add_sub_add_right]
    rw [hpop] at hpop_later
    rw [takeRequest_of_pop? hpop, takeRequest_of_pop? hpop_later, htaken]
    exact access_later packet.item lower _

/-- A cache works as before. -/
theorem cycle_later (lower : Lookup.Link) (c : RangeCache) :
    (c.later k).cycle (now + k) (lower.later k)
      = Prod.map (later k) (.later k) (c.cycle now lower) := by
  have hcount : (c.later k).countWaiting = c.countWaiting.later k := rfl
  rw [cycle_eq, cycle_eq, hcount, takeResponse_later, Prod.map_fst, Prod.map_snd,
    takeRequest_later]

end RangeCache

/-! ## Switches -/

namespace Switch

variable {s : Switch} {lower : Lookup.Link}

/-- The switch with everything `k` cycles later. -/
def later (k : Nat) (s : Switch) : Switch := { s with inputs := s.inputs.map (.later k) }

@[simp] theorem busy_later (k : Nat) (s : Switch) : (s.later k).busy = s.busy := by
  simp [busy, later, Function.comp_def]

theorem getElem?_later (input : Nat) (s : Switch) :
    (s.later k).inputs[input]? = s.inputs[input]?.map (.later k) :=
  List.getElem?_map

theorem passThrough_later (lower : Lookup.Link) (s : Switch) :
    (s.later k).passThrough (lower.later k)
      = Prod.map (later k) (.later k) (s.passThrough lower) := by
  obtain ⟨_ | ⟨input, others⟩, mode, delay, shift, stats⟩ := s
  · rfl
  · simp [passThrough, later, Link.later]

theorem route_later (lower : Lookup.Link) (s : Switch) :
    (s.later k).route (now + k) (lower.later k)
      = (s.route now lower).map (Prod.map (later k) (.later k)) := by
  rcases hpop : lower.responses.pop? now with _ | ⟨packet, rest⟩
  · simp only [route, Link.responses_later, Port.pop?_later, hpop]
    rfl
  · have hdeliver : (s.later k).deliver (now + k) packet.item
        = (s.deliver now packet.item).map (later k) := by
      have hshift : (s.later k).shift = s.shift := rfl
      rw [deliver, deliver, hshift, getElem?_later]
      rcases s.inputs[TagPacking.inputOf s.shift packet.item.tag]? with _ | link
      · rfl
      · simp [later, Outcome.map, Outcome.ok]
    simp only [route, Link.responses_later, Port.pop?_later, hpop, Option.map_some, Prod.map_apply]
    show ((s.later k).deliver (now + k) packet.item).map _ = _
    rw [hdeliver]
    rfl

theorem requestVisible_later (s : Switch) :
    (s.later k).requestVisible (now + k) = s.requestVisible now := by
  funext input
  rw [requestVisible, requestVisible, getElem?_later]
  rcases s.inputs[input]? with _ | link
  · rfl
  · simp

theorem forward_later (input : Nat) (lower : Lookup.Link) (s : Switch) :
    (s.later k).forward (now + k) input (lower.later k)
      = (s.forward now input lower).map (Prod.map (later k) (.later k)) := by
  rw [forward, forward, getElem?_later]
  rcases s.inputs[input]? with _ | link
  · rfl
  · rcases hpop : link.requests.pop? now with _ | ⟨packet, rest⟩
    · simp only [Option.map_some, Link.requests_later, Port.pop?_later, hpop]
      rfl
    · have hshift : (s.later k).shift = s.shift := rfl
      simp only [Option.map_some, Link.requests_later, Port.pop?_later, hpop, Prod.map_apply,
        Packet.later, hshift]
      by_cases hover : TagPacking.overflows s.shift packet.item.tag = true
      · simp only [if_pos hover]
        rfl
      · simp only [if_neg hover, Link.request_later]
        simp [later, Outcome.map, Outcome.ok, Link.later]

theorem grant_later (arbiter : Arbiter) (lower : Lookup.Link) (s : Switch) :
    (s.later k).grant (now + k) arbiter (lower.later k)
      = (s.grant now arbiter lower).map (Prod.map (later k) (.later k)) := by
  rw [grant, grant, requestVisible_later]
  rcases arbiter.select (s.requestVisible now) with ⟨_ | input, next⟩
  · rfl
  · exact forward_later input lower { s with mode := .arbitrated next }

/-- A switch chooses as before. -/
theorem cycle_later (lower : Lookup.Link) (s : Switch) :
    (s.later k).cycle (now + k) (lower.later k)
      = (s.cycle now lower).map (Prod.map (later k) (.later k)) := by
  have hmode : (s.later k).mode = s.mode := rfl
  rw [cycle, cycle, hmode]
  rcases s.mode with _ | arbiter
  · exact congrArg Outcome.ok (passThrough_later lower s)
  · show ((s.later k).route (now + k) (lower.later k)).andThen _ = _
    rw [route_later]
    exact Outcome.andThen_map fun next => grant_later arbiter next.2 next.1

end Switch

/-! ## Checkers -/

/-- The verdict reached `k` cycles later. -/
def Verdict.later (k : Nat) (v : Verdict) : Verdict := { v with cycle := v.cycle + k }

namespace Checker

variable {c : Checker} {l1 : Lookup.Link}

/-- The checker with everything `k` cycles later. -/
def later (k : Nat) (c : Checker) : Checker :=
  { c with
    input := c.input.later k
    output := c.output.later k
    verdicts := c.verdicts.map (.later k) }

theorem emit_later (trace : Trace) (c : Checker) :
    (c.later k).emit (now + k) trace = (c.emit now trace).later k := by
  simp [emit, later]

theorem record_later (v : Verdict) (c : Checker) :
    (c.later k).record (v.later k) = (c.record v).later k := by
  have hcount : countVerdict (v.later k) c.stats = countVerdict v c.stats := rfl
  simp [record, later, hcount]

theorem finish_later (tag : Tag) (c : Checker) :
    (c.later k).finish (now + k) tag = (c.finish now tag).map (later k) := by
  have hslots : (c.later k).slots = c.slots := rfl
  rw [finish, finish, hslots]
  rcases c.slots.release tag with e | ⟨pending, slots⟩
  · rfl
  · exact congrArg Outcome.ok (emit_later pending.trace { c with slots })

/-- A checker judges as before. -/
theorem complete_later (rsp : Response) (c : Checker) :
    (c.later k).complete (now + k) rsp = (c.complete now rsp).map (later k) := by
  have hslots : (c.later k).countResponse.slots = c.countResponse.slots := rfl
  simp only [complete, hslots]
  rcases c.countResponse.slots.modify rsp.tag _ with e | ⟨pending, slots⟩
  · rfl
  · have hrecord : ({ (c.later k).countResponse with slots } : Checker).record
          (verdictOf (now + k) rsp pending.trace)
        = ({ c.countResponse with slots }.record (verdictOf now rsp pending.trace)).later k :=
      record_later (verdictOf now rsp pending.trace) { c.countResponse with slots }
    simp only [hrecord]
    by_cases hlast : pending.remaining = 0
    · simp only [if_pos hlast]
      exact finish_later rsp.tag _
    · simp only [if_neg hlast]
      rfl

theorem unresolved_later (trace : Trace) (c : Checker) :
    (c.later k).unresolved (now + k) trace = (c.unresolved now trace).later k := by
  have hconfig : (c.later k).config = c.config := rfl
  simp only [unresolved, hconfig]
  rcases c.config.unresolved with _ | _
  · rfl
  · simp [emit, later]

theorem issue_later (l1 : Lookup.Link) (c : Checker) :
    (c.later k).issue (now + k) (l1.later k)
      = (c.issue now l1).map (Prod.map (later k) (.later k)) := by
  have hpop_later : (c.later k).input.pop? (now + k)
      = (c.input.pop? now).map (Prod.map (.later k) (.later k)) := c.input.pop?_later k now
  have hresolve : (c.later k).resolve = c.resolve := rfl
  have hslots : (c.later k).slots = c.slots := rfl
  rcases hpop : c.input.pop? now with _ | ⟨packet, rest⟩
  · simp only [issue, hpop_later, hpop]
    rfl
  · simp only [issue, hpop_later, hpop, Option.map_some, Prod.map_apply, Packet.later]
    rcases hfirst : packet.item.firstAccess? with _ | access
    · rfl
    · rcases hid : c.resolve access.addr with _ | id
      · have hunresolved : ({ c.later k with input := rest.later k } : Checker).unresolved (now + k)
            packet.item = _ := unresolved_later packet.item { c with input := rest }
        simp only [hresolve, hid]
        exact congrArg (fun next => Outcome.ok (next, l1.later k)) hunresolved
      · simp only [hresolve, hid, lookUp, hslots]
        rcases c.slots.allocate ⟨packet.item, 1⟩ with e | ⟨tag, slots⟩
        · rfl
        · simp only [Link.request_later]
          rfl

theorem takeResponse_later (l1 : Lookup.Link) (c : Checker) :
    (c.later k).takeResponse (now + k) (l1.later k)
      = (c.takeResponse now l1).map (Prod.map (later k) (.later k)) := by
  rcases hpop : l1.responses.pop? now with _ | ⟨packet, rest⟩
  · simp only [takeResponse, Link.responses_later, Port.pop?_later, hpop]
    rfl
  · simp only [takeResponse, Link.responses_later, Port.pop?_later, hpop, Option.map_some,
      Prod.map_apply, Packet.later, complete_later]
    rfl

theorem cycle_later (l1 : Lookup.Link) (c : Checker) :
    (c.later k).cycle (now + k) (l1.later k)
      = (c.cycle now l1).map (Prod.map (later k) (.later k)) := by
  rw [cycle, cycle, takeResponse_later]
  exact Outcome.andThen_map fun next => issue_later next.2 next.1

end Checker

/-! ## Cores -/

namespace Core

/-- The core with everything `k` cycles later. -/
def later (k : Nat) (core : Core) : Core :=
  { core with checker := core.checker.later k, l1 := core.l1.later k }

@[simp] theorem busy_later (k : Nat) (core : Core) : (core.later k).busy = core.busy := by
  simp [busy, later, Checker.later, Checker.busy]

theorem cycleCache_later (lower : Lookup.Link) (core : Core) :
    (core.later k).cycleCache (now + k) (lower.later k)
      = Prod.map (later k) (.later k) (core.cycleCache now lower) := by
  have hcycle : (core.later k).l1.cycle (now + k) (lower.later k) = _ :=
    RangeCache.cycle_later lower core.l1
  simp only [cycleCache, hcycle]
  rfl

theorem cycleCaches_later (cores : List Core) (lowers : List Lookup.Link) :
    cycleCaches (now + k) (cores.map (later k)) (lowers.map (.later k))
      = Prod.map (List.map (later k)) (List.map (.later k)) (cycleCaches now cores lowers) := by
  induction cores generalizing lowers with
  | nil => simp [cycleCaches]
  | cons core cores ih =>
    cases lowers with
    | nil => simp [cycleCaches]
    | cons lower lowers => simp [cycleCaches, cycleCache_later, ih]

theorem cycleChecker_later (core : Core) :
    (core.later k).cycleChecker (now + k) = (core.cycleChecker now).map (later k) := by
  have hcycle : (core.later k).checker.cycle (now + k) (core.later k).l1.port = _ :=
    Checker.cycle_later core.l1.port core.checker
  rw [cycleChecker, cycleChecker, hcycle]
  rfl

theorem cycleCheckers_later (cores : List Core) :
    cycleCheckers (now + k) (cores.map (later k))
      = (cycleCheckers now cores).map (List.map (later k)) := by
  induction cores with
  | nil => rfl
  | cons core cores ih =>
    simp only [List.map_cons, cycleCheckers, cycleChecker_later, Outcome.error?_map, ih]
    rcases (core.cycleChecker now).error? with _ | e
    · rfl
    · rfl

theorem leaving_later (core : Core) : (core.later k).leaving (now + k) = core.leaving now := by
  have hdrain : (core.later k).checker.output.drain (now + k) = _ :=
    core.checker.output.drain_later k now
  rw [leaving, leaving, hdrain, Prod.map_fst, List.map_map]
  rfl

theorem collect_later (core : Core) :
    (core.later k).collect (now + k) = (core.collect now).later k := by
  have hdrain : (core.later k).checker.output.drain (now + k) = _ :=
    core.checker.output.drain_later k now
  rw [collect, collect, leaving_later, hdrain]
  rfl

@[simp] theorem entering?_later (k : Nat) (core : Core) :
    (core.later k).entering? = core.entering? := by
  have hlength : (core.later k).checker.input.length = core.checker.input.length :=
    core.checker.input.length_later k
  rw [entering?, entering?, Checker.hasRoom, Checker.hasRoom, hlength]
  rfl

/-- A core exchanges the same traces. -/
theorem exchange_later (core : Core) :
    (core.later k).exchange (now + k) = (core.exchange now).later k := by
  rw [exchange, exchange, collect_later, feed, feed, entering?_later]
  rcases (core.collect now).entering? with _ | trace
  · rfl
  · simp [later, Checker.later]

end Core

/-! ## Machines -/

namespace Machine

variable {m : Machine}

/-- The machine with its clock put forward by `k` cycles, and everything that has happened so far or
is under way moved with it. -/
def later (k : Nat) (m : Machine) : Machine :=
  { m with
    cores := m.cores.map (.later k)
    switch := m.switch.later k
    l2 := m.l2.later k
    table := m.table.later k
    clock := m.clock + k
    stats.cycles := m.stats.cycles + k }

@[simp] theorem busy_later (k : Nat) (m : Machine) : (m.later k).busy = m.busy := by
  simp [busy, later, RangeTable.busy, RangeTable.later, Function.comp_def]

/-! ### The parts of a cycle -/

theorem cycleTable_later (m : Machine) : (m.later k).cycleTable = m.cycleTable.later k :=
  congrArg (fun table => ({ m.later k with table } : Machine)) (RangeTable.cycle_later m.table)

theorem cycleL2_later (m : Machine) : (m.later k).cycleL2 = m.cycleL2.later k := by
  have hcycle : (m.later k).l2.cycle (m.later k).clock (m.later k).table.port = _ :=
    RangeCache.cycle_later m.table.port m.l2
  rw [cycleL2, hcycle]
  rfl

theorem cycleL1s_later (m : Machine) : (m.later k).cycleL1s = m.cycleL1s.later k := by
  have hcycle : Core.cycleCaches (m.later k).clock (m.later k).cores (m.later k).switch.inputs = _ :=
    Core.cycleCaches_later m.cores m.switch.inputs
  rw [cycleL1s, hcycle]
  rfl

theorem cycleSwitch_later (m : Machine) :
    (m.later k).cycleSwitch = m.cycleSwitch.map (later k) := by
  have hcycle : (m.later k).switch.cycle (m.later k).clock (m.later k).l2.port = _ :=
    Switch.cycle_later m.l2.port m.switch
  rw [cycleSwitch, hcycle]
  rfl

theorem cycleCheckers_later (m : Machine) :
    (m.later k).cycleCheckers = m.cycleCheckers.map (later k) := by
  have hcycle : Core.cycleCheckers (m.later k).clock (m.later k).cores = _ :=
    Core.cycleCheckers_later m.cores
  rw [cycleCheckers, hcycle]
  rfl

theorem exchange_later (m : Machine) : (m.later k).exchange = m.exchange.later k := by
  simp only [exchange, later, List.map_map, List.flatMap_map, List.countP_map, Function.comp_def,
    Core.exchange_later, Core.leaving_later, Core.collect_later, Core.entering?_later]

theorem tick_later (m : Machine) : (m.later k).tick = m.tick.later k := by
  simp [tick, later, Nat.add_right_comm]

/-- **A cycle does the same at any time.** -/
theorem cycle_later (k : Nat) (m : Machine) : (m.later k).cycle = m.cycle.map (later k) := by
  rw [cycle, cycle, cycleTable_later, cycleL2_later, cycleL1s_later, cycleSwitch_later,
    Outcome.andThen_map cycleCheckers_later]
  refine Outcome.andThen_map fun m => ?_
  rw [exchange_later, tick_later]
  rfl

/-! ### Calls -/

/-- The error noticed `k` cycles later. -/
def Error.later (k : Nat) : Error → Error
  | .deadlock cycle => .deadlock (cycle + k)
  | error => error

/-- No time is mentioned when a cycle is cut short. -/
theorem later_of_error?_cycle {e : Error} (h : m.cycle.error? = some e) : e.later k = e := by
  have hcases : ∀ {o : Outcome Error Machine} {next : Machine → Outcome Error Machine},
      (o.andThen next).error? = some e → o.error? = some e ∨ (next o.state).error? = some e := by
    rintro ⟨state, _ | error⟩ next herror
    · exact .inr herror
    · exact .inl herror
  rcases hcases h with herror | herror
  · rcases hcases herror with herror | herror
    · obtain ⟨error, -, rfl⟩ := Option.map_eq_some_iff.mp herror
      rfl
    · obtain ⟨error, -, rfl⟩ := Option.map_eq_some_iff.mp herror
      rfl
  · cases herror

theorem runFor_later (fuel k : Nat) (m : Machine) :
    (m.later k).runFor fuel = ((m.runFor fuel).map (later k)).mapError (.later k) := by
  induction fuel generalizing m with
  | zero =>
    rw [runFor, runFor, busy_later]
    split
    · rfl
    · rfl
  | succ fuel ih =>
    rw [runFor, runFor, busy_later]
    by_cases hbusy : m.busy = true
    · simp only [if_pos hbusy, cycle_later]
      rcases hcycle : m.cycle with ⟨next, _ | e⟩
      · exact ih next
      · have he : e.later k = e := later_of_error?_cycle (by rw [hcycle])
        simp [Outcome.andThen, Outcome.map, Outcome.mapError, he]
    · simp only [if_neg hbusy]
      rfl

/-- A run ends the same way if its limit is moved with the clock. -/
theorem run_later (limit k : Nat) (m : Machine) :
    (m.later k).run (limit + k) = ((m.run limit).map (later k)).mapError (.later k) := by
  have hfuel : limit + k - (m.later k).clock = limit - m.clock := Nat.add_sub_add_right _ _ _
  rw [run, run, hfuel, runFor_later]

theorem push_later (trace : Trace) (k : Nat) (m : Machine) :
    (m.later k).push trace = (m.push trace).map (later k) := by
  have hcore : (m.later k).cores[trace.coreId.toNat]? = m.cores[trace.coreId.toNat]?.map (.later k) :=
    List.getElem?_map
  rw [push, push, hcore]
  rcases m.cores[trace.coreId.toNat]? with _ | core
  · simp [later, Outcome.map, Outcome.fail]
  · simp [later, Outcome.map, Outcome.ok, Core.later]

theorem dropCompleted_later (k : Nat) (m : Machine) :
    (m.later k).dropCompleted = m.dropCompleted.later k := by
  simp [dropCompleted, later, Core.later, Function.comp_def]

theorem dropVerdicts_later (k : Nat) (m : Machine) :
    (m.later k).dropVerdicts = m.dropVerdicts.later k := by
  simp [dropVerdicts, later, Core.later, Checker.dropVerdicts, Checker.later, Function.comp_def]

/-! ### Results -/

theorem allCompleted_later (k : Nat) (m : Machine) :
    (m.later k).allCompleted = m.allCompleted := by
  simp [allCompleted, later, Core.later, Function.comp_def]

theorem completed_later (k core : Nat) (m : Machine) :
    (m.later k).completed core = m.completed core := by
  have hcore : (m.later k).cores[core]? = m.cores[core]?.map (.later k) := List.getElem?_map
  rw [completed, completed, hcore]
  rcases m.cores[core]? with _ | core
  · rfl
  · rfl

/-- Verdicts name the cycles in which they were reached. -/
theorem verdicts_later (k : Nat) (m : Machine) :
    (m.later k).verdicts = m.verdicts.map (Prod.map id (.later k)) := by
  simp [verdicts, later, Core.later, Checker.later, List.flatMap_map, List.map_flatMap,
    Function.comp_def]

/-- Of all counters, only the number of cycles tells the time. -/
theorem report_later (k : Nat) (m : Machine) :
    (m.later k).report = { m.report with run.cycles := m.report.run.cycles + k } := by
  simp [report, later, Core.later, Checker.later, RangeCache.later, RangeTable.later, Switch.later,
    Function.comp_def]

end Machine

/-- The call with its limit, if it has one, moved by `k` cycles. -/
def Call.later (k : Nat) : Call → Call
  | .run limit => .run (limit + k)
  | call => call

/-- **Whatever is asked of a machine, except for a reset, ends the same way at any time.** -/
theorem Machine.call_later {call : Call} (hcall : call ≠ .reset) (k : Nat) (m : Machine) :
    ((m.later k).call (call.later k)).state = (m.call call).state.later k ∧
      ((m.later k).call (call.later k)).error? = (m.call call).error?.map (.later k) := by
  cases call with
  | push trace =>
    show ((m.later k).push trace).state = (m.push trace).state.later k ∧
      ((m.later k).push trace).error? = (m.push trace).error?.map (.later k)
    rw [push_later]
    refine ⟨rfl, ?_⟩
    obtain ⟨core, -, heq⟩ | ⟨-, heq⟩ := m.push_cases trace
    · rw [heq]
      rfl
    · rw [heq]
      rfl
  | cycle =>
    show (m.later k).cycle.state = m.cycle.state.later k ∧
      (m.later k).cycle.error? = m.cycle.error?.map (.later k)
    rw [cycle_later]
    refine ⟨rfl, ?_⟩
    rcases hcycle : m.cycle.error? with _ | e
    · exact hcycle
    · rw [Option.map_some, later_of_error?_cycle hcycle]
      exact hcycle
  | run limit =>
    show ((m.later k).run (limit + k)).state = _ ∧ ((m.later k).run (limit + k)).error? = _
    rw [run_later]
    exact ⟨rfl, rfl⟩
  | takeCompleted => exact ⟨m.dropCompleted_later k, rfl⟩
  | takeVerdicts => exact ⟨m.dropVerdicts_later k, rfl⟩
  | reset => exact absurd rfl hcall

end BoundsCheck
