import BoundsCheck.Proofs.Counting
import BoundsCheck.Proofs.Phases

/-!
# A machine without a switch

A machine with a single core needs no switch: its core might as well stand directly above the shared
cache.  The two cannot be told apart, cycle for cycle.  Within a cycle they do differ: the shared
cache of the machine answers onto an empty port, whose packets the switch moves up at once, while
without a switch it answers behind all that is still under way.  A cache takes no notice of what
stands in front of its answers, and no answer can be taken in the cycle in which it is sent, so
nobody takes notice of the difference.

* `Chain` — a core directly above a cache, and that above the range table.
* `RangeCache.cycle_withEarlier`, `RangeCache.cycle_amid` — what a cache takes no notice of.
* `Chain.Mirrors` — what a chain and a machine have in common between two calls.
* `Chain.Mirrors.call` — no call makes a difference.
* `Drive.bypass_invisible` — a machine with one core is like the chain of its configuration.
-/

set_option autoImplicit false

namespace BoundsCheck

open Lookup

/-! ## Chains -/

/-- A core directly above a shared cache, and that above the range table. -/
structure Chain where
  core : Core
  l2 : RangeCache
  table : RangeTable
  /-- The number of the next cycle. -/
  clock : Nat := 0
  stats : Stats.Run := {}

namespace Chain

/-- The chain a configuration asks for. -/
def new (c : Config) : Except Machine.BuildError Chain := do
  Machine.checked c.validate
  let resolver ← Machine.faultless (Resolver.ofConfig c)
  let core ← Machine.faultless (Machine.newCore c resolver 0)
  let l2 ← Machine.faultless (RangeCache.new "l2_rcache" 0 c.l2)
  let table ← Machine.checked (RangeTable.ofConfig c.table)
  return { core, l2, table }

/-- Something is left to do. -/
def busy (ch : Chain) : Bool := ch.core.busy || ch.l2.busy || ch.table.busy

/-- Gives the core a trace to run. -/
def push (trace : Trace) (ch : Chain) : Outcome Machine.Error Chain :=
  if trace.coreId.toNat = 0 then .ok { ch with core.queue := ch.core.queue ++ [trace] }
  else .fail ch (.invalidCore trace.coreId.toNat 1)

/-! ### The parts of a cycle -/

/-- The table answers. -/
def cycleTable (ch : Chain) : Chain := { ch with table := ch.table.cycle ch.clock }

/-- The shared cache works above the table. -/
def cycleL2 (ch : Chain) : Chain :=
  let (l2, port) := ch.l2.cycle ch.clock ch.table.port
  { ch with l2 := l2, table.port := port }

/-- The cache of the core works above the shared cache. -/
def cycleL1 (ch : Chain) : Chain :=
  let (core, port) := ch.core.cycleCache ch.clock ch.l2.port
  { ch with core := core, l2.port := port }

/-- The checker works above the cache of the core. -/
def cycleChecker (ch : Chain) : Outcome Machine.Error Chain :=
  ((ch.core.cycleChecker ch.clock).map fun core => { ch with core }).mapError .slot

/-- Traces are taken from the checker and given to it. -/
def exchange (ch : Chain) : Chain :=
  { ch with
    core := ch.core.exchange ch.clock
    stats.tracesOut := ch.stats.tracesOut + (ch.core.leaving ch.clock).length
    stats.tracesIn :=
      ch.stats.tracesIn + if (ch.core.collect ch.clock).entering?.isSome then 1 else 0 }

/-- The cycle is over. -/
def tick (ch : Chain) : Chain :=
  { ch with clock := ch.clock + 1, stats.cycles := ch.clock + 1 }

/-- One cycle of all components, from the table up to the checker. -/
def cycle (ch : Chain) : Outcome Machine.Error Chain :=
  ch.cycleTable.cycleL2.cycleL1.cycleChecker.andThen fun ch => .ok ch.exchange.tick

/-! ### Calls -/

/-- At most `fuel` cycles, until nothing is left to do. -/
def runFor (fuel : Nat) (ch : Chain) : Outcome Machine.Error Chain :=
  if ch.busy then
    match fuel with
    | 0 => .fail ch (.deadlock ch.clock)
    | fuel + 1 => ch.cycle.andThen (runFor fuel)
  else .ok ch

/-- Cycles until nothing is left to do, but none with the number `limit` or a higher one. -/
def run (limit : Nat) (ch : Chain) : Outcome Machine.Error Chain := ch.runFor (limit - ch.clock)

/-- Does what is asked. -/
def call (call : Call) (ch : Chain) : Outcome Machine.Error Chain :=
  match call with
  | .push trace => ch.push trace
  | .cycle => ch.cycle
  | .run limit => ch.run limit
  | .takeCompleted => .ok { ch with core.completed := [] }
  | .takeVerdicts => .ok { ch with core.checker := ch.core.checker.dropVerdicts }
  | .reset => .ok { core := ch.core.reset, l2 := ch.l2.reset, table := ch.table.reset }

/-- The chain after several calls. -/
def after (calls : List Call) (ch : Chain) : Chain :=
  calls.foldl (fun ch call => (ch.call call).state) ch

end Chain

/-! ## What a cache takes no notice of -/

namespace Port

variable {α : Type}

/-- The packets of one port in front of those of another. -/
def append (p q : Port α) : Port α := ⟨p.packets ++ q.packets⟩

theorem append_empty (p : Port α) : p.append {} = p := by
  rw [append, List.append_nil]

theorem append_send (p q : Port α) (item : α) (delay now : Nat) :
    (p.append q).send item delay now = p.append (q.send item delay now) := by
  simp only [append, send, List.append_assoc]

theorem append_sendAll (p q : Port α) (items : List α) (delay now : Nat) :
    (p.append q).sendAll items delay now = p.append (q.sendAll items delay now) := by
  simp only [append, sendAll, List.append_assoc]

/-- No item of the port can be taken yet, not even once all before it are gone. -/
def Hidden (now : Nat) (p : Port α) : Prop := ∀ packet ∈ p.packets, now < packet.ready

/-- Packets that cannot be taken yet make no difference at the end of a port. -/
theorem pop?_append {p q : Port α} {now : Nat} (h : q.Hidden now) :
    (p.append q).pop? now = (p.pop? now).map fun next => (next.1, next.2.append q) := by
  obtain ⟨_ | ⟨first, others⟩⟩ := p
  · obtain ⟨_ | ⟨first, others⟩⟩ := q
    · rfl
    · have hready : ¬ first.ready ≤ now := Nat.not_le.mpr (h first List.mem_cons_self)
      simp [append, pop?, hready]
  · by_cases hready : first.ready ≤ now
    · simp [append, pop?, hready]
    · simp [append, pop?, hready]

theorem hidden_sendAll (items : List α) {delay : Nat} (hdelay : delay ≠ 0) (now : Nat) :
    (sendAll items delay now {}).Hidden now := by
  intro packet hpacket
  change packet ∈ [] ++ items.map _ at hpacket
  rw [List.nil_append, List.mem_map] at hpacket
  obtain ⟨item, -, rfl⟩ := hpacket
  show now < now + delay
  omega

end Port

/-- The link between questions that were sent before and answers that were sent later. -/
def Link.amid {α β : Type} (earlier : Port α) (later : Port β) (l : Link α β) : Link α β :=
  ⟨earlier.append l.requests, l.responses.append later⟩

namespace RangeCache

variable {now : Nat} {lower : Lookup.Link} {c : RangeCache}

/-- The cache with answers of an earlier time in front of its own. -/
def withEarlier (earlier : Port Response) (c : RangeCache) : RangeCache :=
  { c with port.responses := earlier.append c.port.responses }

/-! ### What stands in front of its answers -/

theorem fill_withEarlier (earlier : Port Response) (now : Nat) (rsp : Response) (c : RangeCache) :
    (c.withEarlier earlier).fill now rsp = (c.fill now rsp).withEarlier earlier := by
  have hkeep : (c.withEarlier earlier).keep rsp = (c.keep rsp).withEarlier earlier := by
    rw [keep, keep]
    split <;> rfl
  rw [fill, fill, hkeep]
  generalize c.keep rsp = d
  rcases htake : d.misses.take? rsp.bufferId with _ | ⟨waiting, misses⟩
  · have htake' : (d.withEarlier earlier).misses.take? rsp.bufferId = none := htake
    rw [answerWaiting, answerWaiting, htake, htake']
  · have htake' : (d.withEarlier earlier).misses.take? rsp.bufferId = some (waiting, misses) := htake
    rw [answerWaiting, answerWaiting, htake, htake']
    simp only [withEarlier, Port.append_sendAll]

theorem access_withEarlier (earlier : Port Response) (now : Nat) (req : Request)
    (lower : Lookup.Link) (c : RangeCache) :
    (c.withEarlier earlier).access now req lower
      = ((c.access now req lower).1.withEarlier earlier, (c.access now req lower).2) := by
  rcases hget : c.lines.get? req.bufferId with _ | entry
  · have hget' : (c.withEarlier earlier).lines.get? req.bufferId = none := hget
    rw [access, access, hget, hget']
    simp only
    split
    · rename_i hmerges
      rw [if_pos (show c.misses.merges req = true from hmerges)]
      rfl
    · rename_i hmerges
      rw [if_neg (show ¬ c.misses.merges req = true from hmerges)]
      rfl
  · have hget' : (c.withEarlier earlier).lines.get? req.bufferId = some entry := hget
    rw [access, access, hget, hget']
    simp only [hit, withEarlier, Link.respond, Port.append_send]

/-- **A cache takes no notice of what stands in front of its answers.** -/
theorem cycle_withEarlier (earlier : Port Response) (now : Nat) (lower : Lookup.Link)
    (c : RangeCache) :
    (c.withEarlier earlier).cycle now lower
      = ((c.cycle now lower).1.withEarlier earlier, (c.cycle now lower).2) := by
  have hresponse : (c.withEarlier earlier).countWaiting.takeResponse now lower
      = ((c.countWaiting.takeResponse now lower).1.withEarlier earlier,
        (c.countWaiting.takeResponse now lower).2) := by
    rw [takeResponse, takeResponse]
    split
    · rfl
    · exact congrArg (·, _) (fill_withEarlier earlier now _ c.countWaiting)
  rw [cycle_eq, cycle_eq, hresponse]
  generalize c.countWaiting.takeResponse now lower = next
  rw [takeRequest, takeRequest]
  rcases hpop : next.1.port.requests.pop? now with _ | ⟨packet, rest⟩
  · have hpop' : (next.1.withEarlier earlier).port.requests.pop? now = none := hpop
    rw [hpop']
  · have hpop' : (next.1.withEarlier earlier).port.requests.pop? now = some (packet, rest) := hpop
    rw [hpop']
    exact access_withEarlier earlier now packet.item next.2
      ({ next.1 with port.requests := rest }.countRead now packet.sent)

/-! ### What is on the link below -/

theorem access_amid (earlier : Port Request) (later : Port Response) (now : Nat) (req : Request)
    (lower : Lookup.Link) (c : RangeCache) :
    c.access now req (lower.amid earlier later)
      = ((c.access now req lower).1, (c.access now req lower).2.amid earlier later) := by
  rw [access, access]
  split
  · rfl
  · split
    · rfl
    · simp only [Link.request, Link.amid, Port.append_send]

/-- **A cache takes no notice of questions before its own** on the link below it, nor of answers that
cannot be taken yet. -/
theorem cycle_amid (earlier : Port Request) {later : Port Response} (hlater : later.Hidden now)
    (lower : Lookup.Link) (c : RangeCache) :
    c.cycle now (lower.amid earlier later)
      = ((c.cycle now lower).1, (c.cycle now lower).2.amid earlier later) := by
  have hresponse : c.countWaiting.takeResponse now (lower.amid earlier later)
      = ((c.countWaiting.takeResponse now lower).1,
        (c.countWaiting.takeResponse now lower).2.amid earlier later) := by
    have hpop : (lower.amid earlier later).responses.pop? now = _ := Port.pop?_append hlater
    rw [takeResponse, takeResponse, hpop]
    rcases lower.responses.pop? now with _ | ⟨packet, rest⟩
    · rfl
    · rfl
  rw [cycle_eq, cycle_eq, hresponse]
  generalize c.countWaiting.takeResponse now lower = next
  rw [takeRequest, takeRequest]
  rcases next.1.port.requests.pop? now with _ | ⟨packet, rest⟩
  · rfl
  · exact access_amid earlier later now packet.item next.2
      ({ next.1 with port.requests := rest }.countRead now packet.sent)

end RangeCache

/-! ## A chain and a machine -/

namespace Chain

/-- A chain and a machine with one core, in the midst of a cycle.  The link between the two caches
of the chain is what the link of the machine above its switch and the one below it are together. -/
structure Agrees (above : Lookup.Link) (ch : Chain) (m : Machine) : Prop where
  cores : m.cores = [ch.core]
  inputs : m.switch.inputs = [above]
  mode : m.switch.mode = .bypass
  l2 : ch.l2 = { m.l2 with port := above.amid m.l2.port.requests m.l2.port.responses }
  table : m.table = ch.table
  clock : m.clock = ch.clock
  stats : m.stats = ch.stats
  /-- The shared cache does not answer at once. -/
  latency : m.l2.config.hitLatency.toNat ≠ 0

/-- A chain and a machine with one core between two cycles.  No question is left above the switch,
and no answer is left below it. -/
structure Mirrors (ch : Chain) (m : Machine) : Prop where
  agrees : ch.Agrees ⟨{}, ch.l2.port.responses⟩ m
  answers : m.l2.port.responses = {}

variable {above : Lookup.Link} {ch : Chain} {m : Machine}

/-! ### The phases -/

theorem Agrees.cycleTable (h : ch.Agrees above m) : ch.cycleTable.Agrees above m.cycleTable := by
  refine ⟨h.cores, h.inputs, h.mode, h.l2, ?_, h.clock, h.stats, h.latency⟩
  show m.table.cycle m.clock = ch.table.cycle ch.clock
  rw [h.table, h.clock]

/-- The shared cache of the chain answers behind all that is still under way. -/
theorem Agrees.cycleL2 {responses : Port Response} (h : ch.Agrees ⟨{}, responses⟩ m) :
    ch.cycleL2.Agrees ⟨{}, responses⟩ m.cycleL2 := by
  have hbefore : ch.l2 = m.l2.withEarlier responses := by
    rw [h.l2, Link.amid, Port.append_empty]
    rfl
  have hcycle : ch.l2.cycle ch.clock ch.table.port
      = ((m.l2.cycle m.clock m.table.port).1.withEarlier responses,
        (m.l2.cycle m.clock m.table.port).2) := by
    rw [hbefore, ← h.clock, ← h.table, RangeCache.cycle_withEarlier]
  refine ⟨h.cores, h.inputs, h.mode, ?_, ?_, h.clock, h.stats, ?_⟩
  · show (ch.l2.cycle ch.clock ch.table.port).1 = _
    rw [hcycle, Link.amid, Port.append_empty]
    rfl
  · show { m.table with port := (m.l2.cycle m.clock m.table.port).2 }
      = { ch.table with port := (ch.l2.cycle ch.clock ch.table.port).2 }
    rw [hcycle, h.table]
  · show (m.l2.cycle m.clock m.table.port).1.config.hitLatency.toNat ≠ 0
    rw [RangeCache.config_cycle]
    exact h.latency

/-- The cache of the core finds the answers that the machine has above the switch, and no others. -/
theorem Agrees.cycleL1 (h : ch.Agrees above m) (hidden : m.l2.port.responses.Hidden m.clock) :
    ch.cycleL1.Agrees (ch.core.l1.cycle m.clock above).2 m.cycleL1s := by
  have hport : ch.l2.port = above.amid m.l2.port.requests m.l2.port.responses := by rw [h.l2]
  have hcycle : ch.core.cycleCache ch.clock ch.l2.port
      = ((ch.core.cycleCache m.clock above).1,
        (ch.core.cycleCache m.clock above).2.amid m.l2.port.requests m.l2.port.responses) := by
    rw [Core.cycleCache, Core.cycleCache, hport, ← h.clock, RangeCache.cycle_amid _ hidden]
  have hcaches : Core.cycleCaches m.clock m.cores m.switch.inputs
      = ([(ch.core.cycleCache m.clock above).1], [(ch.core.cycleCache m.clock above).2]) := by
    rw [h.cores, h.inputs]
    rfl
  refine ⟨?_, ?_, h.mode, ?_, h.table, h.clock, h.stats, h.latency⟩
  · show (Core.cycleCaches m.clock m.cores m.switch.inputs).1
      = [(ch.core.cycleCache ch.clock ch.l2.port).1]
    rw [hcaches, hcycle]
  · show (Core.cycleCaches m.clock m.cores m.switch.inputs).2 = _
    rw [hcaches]
    rfl
  · show { ch.l2 with port := (ch.core.cycleCache ch.clock ch.l2.port).2 } = _
    rw [hcycle, h.l2]
    rfl

/-- The switch moves up all answers and down all questions. -/
theorem Agrees.cycleSwitch (h : ch.Agrees above m) :
    m.cycleSwitch.error? = none ∧ ch.Mirrors m.cycleSwitch.state := by
  have hcycle : m.switch.cycle m.clock m.l2.port = .ok (m.switch.passThrough m.l2.port) := by
    rw [Switch.cycle, h.mode]
  have hstate : m.cycleSwitch.state = { m with
      switch := (m.switch.passThrough m.l2.port).1
      l2.port := (m.switch.passThrough m.l2.port).2 } := by
    rw [Machine.cycleSwitch, hcycle]
    rfl
  have hinputs : (m.switch.passThrough m.l2.port).1.inputs
      = [⟨{}, above.responses.append m.l2.port.responses⟩] := by
    rw [Switch.passThrough, h.inputs]
    rfl
  have hmode : (m.switch.passThrough m.l2.port).1.mode = .bypass := by
    rw [Switch.passThrough, h.inputs]
    exact h.mode
  have hlower : (m.switch.passThrough m.l2.port).2
      = ⟨m.l2.port.requests.append above.requests, {}⟩ := by
    rw [Switch.passThrough, h.inputs]
    rfl
  refine ⟨by rw [Machine.cycleSwitch, hcycle]; rfl, ?_⟩
  rw [hstate, hlower]
  refine ⟨⟨h.cores, ?_, hmode, ?_, h.table, h.clock, h.stats, h.latency⟩, rfl⟩
  · rw [hinputs, h.l2]
    rfl
  · rw [h.l2]
    simp only [Link.amid, Port.append_empty]

/-- A machine and a chain got equally far, and are still alike. -/
def SameOutcome (o : Outcome Machine.Error Chain) (o' : Outcome Machine.Error Machine) : Prop :=
  o'.error? = o.error? ∧ o.state.Mirrors o'.state

/-- With a single core, the machine is cut short when its checker is. -/
theorem Mirrors.cycleChecker (h : ch.Mirrors m) : SameOutcome ch.cycleChecker m.cycleCheckers := by
  have hcheckers : Core.cycleCheckers m.clock m.cores
      = (ch.core.cycleChecker ch.clock).map fun core => [core] := by
    rw [h.agrees.cores, h.agrees.clock, Core.cycleCheckers]
    rcases herror : (ch.core.cycleChecker ch.clock).error? with _ | e
    · simp only [Core.cycleCheckers, Outcome.map, herror]
      rfl
    · simp only [Outcome.map, herror]
      rfl
  refine ⟨?_, ⟨?_, h.agrees.inputs, h.agrees.mode, h.agrees.l2, h.agrees.table, h.agrees.clock,
    h.agrees.stats, h.agrees.latency⟩, h.answers⟩
  · rw [Machine.cycleCheckers, hcheckers]
    rfl
  · show (Core.cycleCheckers m.clock m.cores).state = [(ch.core.cycleChecker ch.clock).state]
    rw [hcheckers]
    rfl

theorem Mirrors.exchange (h : ch.Mirrors m) : ch.exchange.Mirrors m.exchange := by
  refine ⟨⟨?_, h.agrees.inputs, h.agrees.mode, h.agrees.l2, h.agrees.table, h.agrees.clock, ?_,
    h.agrees.latency⟩, h.answers⟩
  · show m.cores.map (·.exchange m.clock) = [ch.core.exchange ch.clock]
    rw [h.agrees.cores, h.agrees.clock]
    rfl
  · simp only [Machine.exchange, Chain.exchange, h.agrees.cores, h.agrees.clock, h.agrees.stats,
      List.flatMap_singleton, List.countP_singleton]

theorem Mirrors.tick (h : ch.Mirrors m) : ch.tick.Mirrors m.tick := by
  refine ⟨⟨h.agrees.cores, h.agrees.inputs, h.agrees.mode, h.agrees.l2, h.agrees.table, ?_, ?_,
    h.agrees.latency⟩, h.answers⟩
  · exact congrArg (· + 1) h.agrees.clock
  · simp only [Machine.tick, Chain.tick, h.agrees.clock, h.agrees.stats]

/-! ### Cycles and runs -/

theorem SameOutcome.andThen {o : Outcome Machine.Error Chain} {o' : Outcome Machine.Error Machine}
    {next : Chain → Outcome Machine.Error Chain} {next' : Machine → Outcome Machine.Error Machine}
    (h : SameOutcome o o')
    (hnext : ∀ {ch m}, ch.Mirrors m → SameOutcome (next ch) (next' m)) :
    SameOutcome (o.andThen next) (o'.andThen next') := by
  rw [Outcome.andThen, Outcome.andThen, h.1]
  split
  · exact hnext h.2
  · exact h

/-- **No cycle makes a difference.** -/
theorem Mirrors.cycle (h : ch.Mirrors m) : SameOutcome ch.cycle m.cycle := by
  have hl2 := h.agrees.cycleTable.cycleL2
  have hidden : m.cycleTable.cycleL2.l2.port.responses.Hidden m.clock := by
    obtain ⟨answers, hanswers⟩ := RangeCache.responses_cycle m.clock m.cycleTable.table.port m.l2
    rw [h.answers] at hanswers
    show ((m.l2.cycle m.clock m.cycleTable.table.port).1.port.responses).Hidden m.clock
    rw [hanswers]
    exact Port.hidden_sendAll answers h.agrees.latency m.clock
  obtain ⟨herror, hswitched⟩ := (hl2.cycleL1 hidden).cycleSwitch
  have hlookups : SameOutcome (.ok ch.cycleTable.cycleL2.cycleL1)
      m.cycleTable.cycleL2.cycleL1s.cycleSwitch := ⟨herror, hswitched⟩
  exact (hlookups.andThen fun h => h.cycleChecker).andThen fun h => ⟨rfl, h.exchange.tick⟩

theorem Mirrors.busy (h : ch.Mirrors m) : m.busy = ch.busy := by
  have hrequests : m.l2.port.requests = ch.l2.port.requests := by
    rw [h.agrees.l2]
    exact (Port.append_empty _).symm
  have hmisses : m.l2.misses = ch.l2.misses := by rw [h.agrees.l2]
  have hrequests' : (({} : Port Request)).hasPending = false := rfl
  have hresponses' : (({} : Port Response)).hasPending = false := rfl
  simp only [Machine.busy, Chain.busy, Switch.busy, RangeCache.busy, Link.hasPending,
    h.agrees.cores, h.agrees.inputs, h.agrees.table, h.answers, hrequests, hmisses, List.any_cons,
    List.any_nil, hrequests', hresponses', Bool.or_false, Bool.false_or]
  ac_rfl

theorem Mirrors.runFor (fuel : Nat) {ch : Chain} {m : Machine} (h : ch.Mirrors m) :
    SameOutcome (ch.runFor fuel) (m.runFor fuel) := by
  induction fuel generalizing ch m with
  | zero =>
    rw [Chain.runFor, Machine.runFor, h.busy, h.agrees.clock]
    split
    · exact ⟨rfl, h⟩
    · exact ⟨rfl, h⟩
  | succ fuel ih =>
    rw [Chain.runFor, Machine.runFor, h.busy]
    split
    · exact h.cycle.andThen ih
    · exact ⟨rfl, h⟩

/-! ### Calls -/

theorem Mirrors.push (h : ch.Mirrors m) (trace : Trace) :
    SameOutcome (ch.push trace) (m.push trace) := by
  rw [Chain.push, Machine.push, h.agrees.cores]
  by_cases hcore : trace.coreId.toNat = 0
  · rw [if_pos hcore, hcore]
    exact ⟨rfl, ⟨rfl, h.agrees.inputs, h.agrees.mode, h.agrees.l2, h.agrees.table, h.agrees.clock,
      h.agrees.stats, h.agrees.latency⟩, h.answers⟩
  · have hnone : [ch.core][trace.coreId.toNat]? = none := by
      rw [List.getElem?_eq_none_iff]
      exact Nat.one_le_iff_ne_zero.mpr hcore
    rw [if_neg hcore, hnone]
    exact ⟨rfl, h⟩

theorem Mirrors.dropCompleted (h : ch.Mirrors m) :
    ({ ch with core.completed := [] } : Chain).Mirrors m.dropCompleted := by
  refine ⟨⟨?_, h.agrees.inputs, h.agrees.mode, h.agrees.l2, h.agrees.table, h.agrees.clock,
    h.agrees.stats, h.agrees.latency⟩, h.answers⟩
  rw [Machine.dropCompleted, h.agrees.cores]
  rfl

theorem Mirrors.dropVerdicts (h : ch.Mirrors m) :
    ({ ch with core.checker := ch.core.checker.dropVerdicts } : Chain).Mirrors m.dropVerdicts := by
  refine ⟨⟨?_, h.agrees.inputs, h.agrees.mode, h.agrees.l2, h.agrees.table, h.agrees.clock,
    h.agrees.stats, h.agrees.latency⟩, h.answers⟩
  rw [Machine.dropVerdicts, h.agrees.cores]
  rfl

theorem Mirrors.reset (h : ch.Mirrors m) :
    ({ core := ch.core.reset, l2 := ch.l2.reset, table := ch.table.reset } : Chain).Mirrors
      m.reset := by
  refine ⟨⟨?_, ?_, ?_, ?_, ?_, rfl, rfl, h.agrees.latency⟩, rfl⟩
  · rw [Machine.reset, h.agrees.cores]
    rfl
  · rw [Machine.reset, Switch.reset, h.agrees.inputs]
    rfl
  · show Switch.resetMode m.switch.mode = _
    rw [h.agrees.mode]
    rfl
  · rw [h.agrees.l2]
    rfl
  · rw [Machine.reset, h.agrees.table]

/-- **No call makes a difference.** -/
theorem Mirrors.call (h : ch.Mirrors m) (call : Call) :
    SameOutcome (ch.call call) (m.call call) := by
  cases call with
  | push trace => exact h.push trace
  | cycle => exact h.cycle
  | run limit =>
    rw [Chain.call, Machine.call, Chain.run, Machine.run, h.agrees.clock]
    exact h.runFor _
  | takeCompleted => exact ⟨rfl, h.dropCompleted⟩
  | takeVerdicts => exact ⟨rfl, h.dropVerdicts⟩
  | reset => exact ⟨rfl, h.reset⟩

theorem Mirrors.after {d : Drive} (calls : List Call) (h : ch.Mirrors d.machine) :
    (ch.after calls).Mirrors (d.after calls).machine := by
  induction calls generalizing ch d with
  | nil => exact h
  | cons call calls ih =>
    refine ih (d := d.step call) ?_
    rw [Drive.machine_step]
    exact (h.call call).2

/-! ### What shows -/

/-- The verdicts of the core, with its number. -/
def verdicts (ch : Chain) : List (UInt64 × Verdict) :=
  ch.core.checker.verdicts.map (ch.core.checker.id, ·)

/-- What all components have counted, with the counters of some switch. -/
def report (switch : Stats.Switch) (ch : Chain) : Stats where
  run := ch.stats
  checkers := .ofList [(ch.core.checker.id, ch.core.checker.stats)]
  l1 := .ofList [(ch.core.l1.id, ch.core.l1.stats)]
  l2 := ch.l2.stats
  table := ch.table.stats
  switch := switch

/-- All that a chain shows, a machine shows as well. -/
structure ShowsAs (ch : Chain) (m : Machine) : Prop where
  verdicts : m.verdicts = ch.verdicts
  completed : m.allCompleted = [ch.core.completed]
  /-- The cache of the core holds the same entries, and the same lookups wait in it. -/
  l1 : m.cores.map (fun core => (core.l1.lines, core.l1.misses))
    = [(ch.core.l1.lines, ch.core.l1.misses)]
  /-- So does the shared cache. -/
  l2 : (m.l2.lines, m.l2.misses) = (ch.l2.lines, ch.l2.misses)
  busy : m.busy = ch.busy
  clock : m.clock = ch.clock
  /-- Only the switch has counters of its own. -/
  report : m.report = ch.report m.switch.stats

theorem Mirrors.showsAs (h : ch.Mirrors m) : ch.ShowsAs m := by
  refine ⟨?_, ?_, ?_, ?_, h.busy, h.agrees.clock, ?_⟩
  · rw [Machine.verdicts, h.agrees.cores, List.flatMap_singleton]
    rfl
  · rw [Machine.allCompleted, h.agrees.cores]
    rfl
  · rw [h.agrees.cores]
    rfl
  · rw [h.agrees.l2]
  · rw [Machine.report, Chain.report, h.agrees.cores, h.agrees.stats, h.agrees.table, h.agrees.l2]
    rfl

/-! ### Before any call -/

/-- Whoever can build a machine with one core can build a chain that mirrors it. -/
theorem exists_mirrors {c : Config} (hnew : Machine.new c = .ok m) (hone : c.cores.toNat = 1) :
    ∃ ch, Chain.new c = .ok ch ∧ ch.Mirrors m := by
  obtain ⟨hc, -⟩ := Machine.of_new hnew
  simp only [Machine.new, Except.bind_eq_ok, Machine.checked_eq_ok, Machine.faultless_eq_ok]
    at hnew
  obtain ⟨_, hvalid, resolver, hresolver, cores, hcores, switch, hswitch, l2, hl2, table, htable,
    hnew⟩ := hnew
  have hcore := Machine.newCore_eq_fresh hc.l1.capacity resolver 0
  have hsingle : cores = [Core.fresh c resolver 0] := by
    rw [hone, List.range_one, List.mapM_cons, hcore] at hcores
    cases hcores
    rfl
  refine ⟨{ core := .fresh c resolver 0, l2, table }, ?_, ?_⟩
  · simp only [Chain.new, Except.bind_eq_ok, Machine.checked_eq_ok, Machine.faultless_eq_ok]
    exact ⟨_, hvalid, resolver, hresolver, _, hcore, l2, hl2, table, htable, rfl⟩
  · rw [RangeCache.new_eq_fresh hc.l2.capacity] at hl2
    cases hl2
    cases Switch.eq_fresh_of_new hswitch
    cases hnew
    have hlatency : c.l2.hitLatency.toNat ≠ 0 := fun hzero =>
      hc.l2.hitLatency (UInt64.toNat_inj.mp hzero)
    refine ⟨⟨hsingle, ?_, ?_, rfl, rfl, rfl, rfl, hlatency⟩, rfl⟩
    · rw [Switch.fresh, hone]
      rfl
    · show Switch.modeFor c.switch.policy c.cores.toNat = .bypass
      rw [hone]
      rfl

end Chain

/-! ## The switch of a single core -/

/-- **The switch of a machine with one core is invisible.**  After any calls, the machine shows all
that the chain of the same configuration shows after them, and whatever is asked of both next
succeeds or fails with both alike.  All that is under way between the caches of the chain is, in the
machine, either an answer above the switch or a question below it. -/
theorem Drive.bypass_invisible {c : Config} {m : Machine} (hnew : Machine.new c = .ok m)
    (hone : c.cores.toNat = 1) :
    ∃ ch, Chain.new c = .ok ch ∧ ∀ calls : List Call,
      (ch.after calls).ShowsAs ((start m).after calls).machine ∧
      (∀ call, (((start m).after calls).machine.call call).error?
        = ((ch.after calls).call call).error?) ∧
      ((start m).after calls).machine.switch.inputs = [⟨{}, (ch.after calls).l2.port.responses⟩] ∧
      ((start m).after calls).machine.l2.port = ⟨(ch.after calls).l2.port.requests, {}⟩ := by
  obtain ⟨ch, hch, hmirrors⟩ := Chain.exists_mirrors hnew hone
  refine ⟨ch, hch, fun calls => ?_⟩
  have hafter : (ch.after calls).Mirrors ((start m).after calls).machine :=
    Chain.Mirrors.after (d := start m) calls hmirrors
  refine ⟨hafter.showsAs, fun call => (hafter.call call).1, hafter.agrees.inputs, ?_⟩
  rw [hafter.agrees.l2, Link.amid, Port.append_empty]
  exact congrArg (Link.mk _) hafter.answers

/-- A load that misses both caches, seen after five cycles and after a run. -/
theorem Drive.bypass_invisible_load :
    ∃ m ch, Machine.new {} = .ok m ∧ Chain.new {} = .ok ch ∧
      (ch.after ([.push (.load 1 0xFEFFFFC8 4)] ++ List.replicate 5 .cycle)).ShowsAs
        ((start m).after ([.push (.load 1 0xFEFFFFC8 4)] ++ List.replicate 5 .cycle)).machine ∧
      (ch.after [.push (.load 1 0xFEFFFFC8 4), .run 100]).ShowsAs
        ((start m).after [.push (.load 1 0xFEFFFFC8 4), .run 100]).machine := by
  obtain ⟨ch, hch, hsame⟩ := bypass_invisible (c := {}) rfl rfl
  exact ⟨_, ch, rfl, hch, (hsame _).1, (hsame _).1⟩

end BoundsCheck
