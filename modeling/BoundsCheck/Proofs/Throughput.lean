import BoundsCheck.Proofs.Flight
import BoundsCheck.Proofs.Stream

/-!
# The throughput of hits

A machine with nothing left to do is given traces for one core, all of them for buffers whose
entries the cache of this core holds.  It judges them in the order they were given, and the cycle in
which each of them is judged follows from the size of the checker and the latency of the cache
alone: as many traces as the checker has room for are judged in consecutive cycles, and then, unless
their places are free by then, the next ones have to wait.

* `Machine.Hit` — the cache of the core holds what the trace is checked against.
* `Config.hitCycle` — the cycle in which a hit is judged.
* `Lane.stream_leads` — what a stream of hits leads to.
* `Drive.hit_throughput` — the verdicts on a stream of hits, and when there is one in each cycle.
-/

set_option autoImplicit false

namespace BoundsCheck

open Lookup

/-- The trace is for the core with the given number, and the cache of this core holds the entry of
the buffer that its first access belongs to. -/
def Machine.Hit (resolver : Resolver) (k : Nat) (m : Machine) (trace : Trace) : Prop :=
  trace.coreId.toNat = k ∧ ∃ core access id, m.cores[k]? = some core ∧
    trace.firstAccess? = some access ∧ resolver.resolve access.addr = some id ∧
    core.l1.lines.contains id = true

instance (resolver : Resolver) (k : Nat) (m : Machine) (trace : Trace) :
    Decidable (m.Hit resolver k trace) :=
  decidable_of_iff (trace.coreId.toNat = k ∧ m.cores[k]?.any fun core =>
      (trace.firstAccess?.bind (resolver.resolve ·.addr)).any core.l1.lines.contains) (by
    simp only [Machine.Hit, Option.any_eq_true, Option.bind_eq_some_iff]
    grind)

namespace Config

/-- The cycle in which the trace with the given number of a stream of hits is judged. -/
def hitCycle (c : Config) (start j : Nat) : Nat :=
  start + j / c.checker.queueSize.toNat
      * max c.checker.queueSize.toNat (c.l1.hitLatency.toNat + 2)
    + j % c.checker.queueSize.toNat + 2 + c.l1.hitLatency.toNat

/-- The cycle before which nothing is left of a stream of so many hits. -/
def idleAfter (c : Config) (start : Nat) : Nat → Nat
  | 0 => start
  | n + 1 => c.hitCycle start n + 2

variable {c : Config} {start : Nat}

theorem hitCycle_eq (c : Config) (start j : Nat) :
    c.hitCycle start j
      = Stream.fedAt c.checker.queueSize.toNat (Stream.round c) start j + Stream.round c := by
  rw [hitCycle, Stream.fedAt, Stream.round, Nat.add_comm c.l1.hitLatency.toNat 2, Nat.add_assoc _ 2]

/-- However many hits there are, they are judged in consecutive cycles, exactly if the checker has
room for all that are under way at once. -/
theorem hitCycle_steady_iff (hc : c.Accepted) (start : Nat) :
    (∀ n, ∃ first, (List.range n).map (c.hitCycle start) = List.range' first n) ↔
      c.l1.hitLatency.toNat + 2 ≤ c.checker.queueSize.toNat := by
  have hpos : 0 < c.checker.queueSize.toNat := toNat_pos_of_ne_zero hc.queueSize
  constructor
  · intro hsteady
    -- the last of these hits is the first one that needs the place of another one
    obtain ⟨first, hcycles⟩ := hsteady (c.checker.queueSize.toNat + 1)
    have hcycle : ∀ j ≤ c.checker.queueSize.toNat, c.hitCycle start j = first + j := by
      intro j hj
      have hget := congrArg (·[j]?) hcycles
      simpa [Nat.lt_succ_of_le hj] using hget
    have hzero := hcycle 0 (Nat.zero_le _)
    have hlast := hcycle _ (Nat.le_refl _)
    have hturn := Stream.fedAt_add hpos (Stream.round c) start 0
    rw [Nat.zero_add, Stream.fedAt_zero] at hturn
    rw [hitCycle_eq, Stream.fedAt_zero] at hzero
    rw [hitCycle_eq, hturn] at hlast
    have hle := Nat.le_max_right c.checker.queueSize.toNat (Stream.round c)
    rw [Stream.round] at *
    omega
  · intro hroom n
    have hround : Stream.round c ≤ c.checker.queueSize.toNat := by
      rw [Stream.round, Nat.add_comm]
      exact hroom
    refine ⟨start + Stream.round c, ?_⟩
    rw [List.range'_eq_map_range]
    refine List.map_congr_left fun j _ => ?_
    rw [hitCycle_eq, Stream.fedAt_of_le hround]
    omega

/-- The verdicts to expect on some traces, with the cycles to expect. -/
theorem map_verdictAt? (c : Config) (resolve : Address → Option BufferId) (legs : List Leg)
    (h : ∀ leg ∈ legs, ∃ id, leg.trace.concerns resolve id = true) :
    (legs.filterMap (c.verdictAt? resolve)).map (·.cycle) = legs.map (·.sent) ∧
      (legs.filterMap (c.verdictAt? resolve)).map (some ·.timeless)
        = legs.map (c.verdict? resolve ·.trace) := by
  induction legs with
  | nil => exact ⟨rfl, rfl⟩
  | cons leg legs ih =>
    obtain ⟨hcycles, hverdicts⟩ := ih fun other hother => h other (List.mem_cons_of_mem _ hother)
    obtain ⟨id, hid⟩ := h leg List.mem_cons_self
    rw [Trace.concerns, Option.any_eq_true] at hid
    obtain ⟨access, haccess, hid⟩ := hid
    rw [beq_iff_eq] at hid
    have hverdict : c.verdict? resolve leg.trace = some (c.verdictOf leg.trace access.addr id) := by
      rw [verdict?, haccess, Option.bind_some, hid, Option.map_some]
    have hat : c.verdictAt? resolve leg
        = some { c.verdictOf leg.trace access.addr id with cycle := leg.sent } := by
      rw [verdictAt?, hverdict, Option.map_some]
    rw [List.filterMap_cons_some hat, List.map_cons, List.map_cons, List.map_cons, List.map_cons,
      hcycles, hverdicts, hverdict]
    exact ⟨rfl, rfl⟩

end Config

/-- The traces of a stream as they are judged. -/
def Stream.judged (c : Config) (start : Nat) (traces : List Trace) : List Leg :=
  later (round c) (plan c.checker.queueSize.toNat (round c) start traces)

theorem Stream.trace_judged (c : Config) (start : Nat) (traces : List Trace) :
    (judged c start traces).map (·.trace) = traces := by
  rw [judged, trace_later, trace_plan]

theorem Stream.sent_judged (c : Config) (start : Nat) (traces : List Trace) :
    (judged c start traces).map (·.sent)
      = (List.range traces.length).map (c.hitCycle start) := by
  rw [judged, sent_later, sent_plan, List.map_map]
  exact List.map_congr_left fun j _ => (c.hitCycle_eq start j).symm

/-! ## A stream through a lane -/

namespace Lane

variable {c : Config} {resolver : Resolver} {k start : Nat} {earlier : List Verdict}
  {traces : List Trace} {held : BufferId → Bool}

/-- Before the given cycle the stream is where it belongs, and nothing is under way below. -/
def Streams (c : Config) (resolver : Resolver) (k : Nat) (earlier : List Verdict)
    (held : BufferId → Bool) (start : Nat) (traces : List Trace) (now : Nat) (l : Lane) : Prop :=
  start ≤ now ∧ ∃ s : Stream,
    s.legs = Stream.plan c.checker.queueSize.toNat (Stream.round c) start traces ∧ s.Timed c now ∧
    l.Carries c resolver k earlier (s.course c held) {}

/-- Whoever is among the traces of a stream is one of the traces given. -/
theorem Streams.mem {s : Stream}
    (hs : s.legs = Stream.plan c.checker.queueSize.toNat (Stream.round c) start traces) {leg : Leg}
    (hleg : leg ∈ s.legs) : leg.trace ∈ traces := by
  rw [hs] at hleg
  have hmem := List.mem_map_of_mem (f := (·.trace)) hleg
  rwa [Stream.trace_plan] at hmem

theorem Streams.cycle {now : Nat} {l : Lane}
    (h : l.Streams c resolver k earlier held start traces now) (hc : c.Accepted)
    (hhits : ∀ trace ∈ traces, ∃ id, trace.concerns resolver.resolve id = true ∧ held id = true) :
    (l.cycle c k now).Streams c resolver k earlier held start traces (now + 1) := by
  obtain ⟨hstart, s, hs, htimed, hcarries⟩ := h
  obtain ⟨next, hlegs, htimed', hcourse⟩ := htimed.next hc hs.symm hstart held
  have hheld : ∀ leg ∈ (s.course c held).asked, ∃ id,
      leg.trace.concerns resolver.resolve id = true ∧ held id = true := by
    intro leg hleg
    obtain ⟨other, hother, rfl⟩ := List.mem_map.mp hleg
    exact hhits other.trace (Streams.mem hs (by simp [Stream.legs, hother]))
  have hknown : ∀ leg ∈ (s.course c held).input, ∃ id,
      leg.trace.concerns resolver.resolve id = true := by
    intro leg hleg
    obtain ⟨other, hother, rfl⟩ := List.mem_map.mp hleg
    obtain ⟨id, hid, -⟩ := hhits other.trace (Streams.mem hs (by simp [Stream.legs, hother]))
    exact ⟨id, hid⟩
  have hcarries' := hcarries.cycle hc (Flight.quiet_default c now none) hheld hknown hcourse
  exact ⟨Nat.le_succ_of_le hstart, next, hlegs.trans hs, htimed', hcarries'⟩

/-- A stream is under way as long as its last trace. -/
theorem Streams.busy {now : Nat} {l : Lane}
    (h : l.Streams c resolver k earlier held start traces now)
    (hlate : now < c.idleAfter start traces.length) : l.busy = true := by
  obtain ⟨hstart, s, hs, htimed, hcarries⟩ := h
  rw [hcarries.busy, Bool.or_eq_true, Bool.not_eq_true']
  refine .inl ?_
  by_contra hdone
  rw [Bool.not_eq_false] at hdone
  rcases hn : traces.length with _ | n
  · rw [hn] at hlate
    exact Nat.not_lt_of_le hstart hlate
  · have hlast : Stream.fedAt c.checker.queueSize.toNat (Stream.round c) start n
        ∈ s.legs.map (·.sent) := by
      rw [hs, Stream.sent_plan, hn]
      exact List.mem_map_of_mem (List.mem_range.mpr (Nat.lt_succ_self n))
    obtain ⟨leg, hleg, hsent⟩ := List.mem_map.mp hlast
    rw [Stream.legs_of_isDone hdone] at hleg
    have hgone := htimed.gone leg hleg
    rw [hn, Config.idleAfter, Config.hitCycle_eq] at hlate
    omega

/-- Then it is over, and all its traces have been judged. -/
theorem Streams.over {l : Lane} (hc : c.Accepted)
    (h : l.Streams c resolver k earlier held start traces (c.idleAfter start traces.length)) :
    l.busy = false ∧ l.core.checker.verdicts = earlier
      ++ (Stream.judged c start traces).filterMap (c.verdictAt? resolver.resolve) := by
  have hpos : 0 < c.checker.queueSize.toNat := toNat_pos_of_ne_zero hc.queueSize
  obtain ⟨-, s, hs, htimed, hcarries⟩ := h
  have hover : ∀ leg ∈ s.legs,
      leg.sent + (Stream.round c + 2) ≤ c.idleAfter start traces.length := by
    intro leg hleg
    rw [hs] at hleg
    have hmem := List.mem_map_of_mem (f := (·.sent)) hleg
    rw [Stream.sent_plan] at hmem
    obtain ⟨j, hj, hsent⟩ := List.mem_map.mp hmem
    rw [List.mem_range] at hj
    obtain ⟨n, hn⟩ := Nat.exists_eq_succ_of_ne_zero (Nat.ne_zero_of_lt hj)
    have hmono := (Stream.strictMono_fedAt hpos (Stream.round c) start).monotone
      (Nat.le_of_lt_succ (hj.trans_eq hn))
    rw [hn, Config.idleAfter, Config.hitCycle_eq]
    omega
  have hgone := htimed.eq_gone hover
  rw [hs] at hgone
  rw [hgone] at hcarries
  refine ⟨by rw [hcarries.busy]; rfl, ?_⟩
  rw [hcarries.core.verdicts]
  simp only [Stream.course, Stream.later, Stream.judged, List.map_nil, List.append_nil]

/-- **What a stream of hits leads to.** -/
theorem stream_leads (hc : c.Accepted)
    (hhits : ∀ trace ∈ traces, ∃ id, trace.concerns resolver.resolve id = true ∧ held id = true) :
    LeadsTo c k
      (fun now l => now ≤ c.idleAfter start traces.length ∧
        l.Streams c resolver k earlier held start traces now)
      (fun now l => now = c.idleAfter start traces.length ∧
        l.Streams c resolver k earlier held start traces now) :=
  LeadsTo.until fun _ _ hlate h => ⟨h.busy hlate, h.cycle hc hhits⟩

end Lane

/-! ## The throughput of a machine -/

/-- All that a core judges until nothing is left to do is determined. -/
theorem Machine.Yields.verdicts_unique {m done done' : Machine} {bound bound' k : Nat}
    {vs ws : List Verdict} (h : m.Yields bound k vs done) (h' : m.Yields bound' k ws done')
    (hk : k < m.cores.length) : vs = ws := by
  have hdone := (h.run _ (Nat.le_max_left bound bound')).symm.trans
    (h'.run _ (Nat.le_max_right bound bound'))
  obtain rfl : done = done' := congrArg Outcome.state hdone
  have hverdicts := (h.verdicts k hk).symm.trans (h'.verdicts k hk)
  rw [if_pos rfl, if_pos rfl] at hverdicts
  exact List.append_cancel_left hverdicts

namespace Drive

variable {c : Config} {m : Machine} {resolver : Resolver} {k : Nat}

/-- The machine with nothing left to do judges a stream of hits as its plan says. -/
theorem yields_of_hits (hnew : Machine.new c = .ok m)
    (hresolver : Resolver.ofConfig c = .ok resolver) (hfit : c.TagsFit) (calls : List Call)
    (hidle : ((start m).after calls).machine.busy = false) (hk : k < c.cores.toNat)
    (traces : List Trace)
    (hhits : ∀ trace ∈ traces, ((start m).after calls).machine.Hit resolver k trace) :
    ∃ vs done, ((start m).after (calls ++ traces.map .push)).machine.Yields
        (c.idleAfter ((start m).after calls).machine.clock traces.length) k vs done ∧
      vs.map (·.cycle) = (List.range traces.length).map
        (c.hitCycle ((start m).after calls).machine.clock) ∧
      vs.map (some ·.timeless) = traces.map (c.verdict? resolver.resolve) := by
  have hc := (Machine.of_new hnew).1
  obtain ⟨core, l, hcore, hcarries, hyields⟩ :=
    yields_of_idle hnew hresolver hfit calls hidle hk fun trace htrace => (hhits trace htrace).1
  generalize ((start m).after calls).machine.clock = clock at *
  have hheld : ∀ trace ∈ traces, ∃ id, trace.concerns resolver.resolve id = true ∧
      core.l1.lines.contains id = true := by
    intro trace htrace
    obtain ⟨-, other, access, id, hother, haccess, hid, hcontains⟩ := hhits trace htrace
    cases hcore.symm.trans hother
    refine ⟨id, ?_, hcontains⟩
    rw [Trace.concerns, haccess, Option.any_some, hid, beq_self_eq_true]
  have hbegins : clock ≤ c.idleAfter clock traces.length := by
    rcases traces.length with _ | n
    · exact Nat.le_refl _
    · rw [Config.idleAfter, Config.hitCycle_eq, Stream.fedAt]
      omega
  have hstreams : l.Streams c resolver k core.checker.verdicts core.l1.lines.contains clock traces
      clock := by
    refine ⟨Nat.le_refl _, _, ?_, Stream.timed_plan c clock traces, ?_⟩
    · simp only [Stream.legs, List.nil_append]
    · rw [Stream.course, Stream.trace_plan]
      exact hcarries.forget
  obtain ⟨_, l', hsteps, rfl, hover⟩ := Lane.stream_leads hc hheld clock l ⟨hbegins, hstreams⟩
  obtain ⟨hdone, hverdicts⟩ := hover.over hc
  obtain ⟨done, hdone, -⟩ := hyields hsteps hdone hverdicts
  obtain ⟨hcycles, htimeless⟩ := c.map_verdictAt? resolver.resolve
    (Stream.judged c clock traces) fun leg hleg => by
      have hmem := List.mem_map_of_mem (f := (·.trace)) hleg
      rw [Stream.trace_judged] at hmem
      obtain ⟨id, hid, -⟩ := hheld leg.trace hmem
      exact ⟨id, hid⟩
  have htraces := congrArg (List.map (c.verdict? resolver.resolve ·))
    (Stream.trace_judged c clock traces)
  rw [List.map_map] at htraces
  exact ⟨_, done, hdone, hcycles.trans (Stream.sent_judged c clock traces), htimeless.trans htraces⟩

/-- **A stream of hits.**  A machine with nothing left to do, whatever was asked of it before, is
given traces for one core, all of them hits in the cache of this core.  A run that may go on long
enough judges exactly these traces, in the order they were given, and each in the cycle that its
number in the stream, the size of the checker and the latency of the cache determine.  Streams of
all lengths are judged in consecutive cycles exactly if the checker has room for all the hits that
can be under way at once. -/
theorem hit_throughput (hnew : Machine.new c = .ok m)
    (hresolver : Resolver.ofConfig c = .ok resolver) (hfit : c.TagsFit) (calls : List Call)
    (hidle : ((start m).after calls).machine.busy = false) (hk : k < c.cores.toNat) :
    (∀ traces : List Trace,
      (∀ trace ∈ traces, ((start m).after calls).machine.Hit resolver k trace) →
      ∃ vs done, ((start m).after (calls ++ traces.map .push)).machine.Yields
          (c.idleAfter ((start m).after calls).machine.clock traces.length) k vs done ∧
        vs.map (·.cycle) = (List.range traces.length).map
          (c.hitCycle ((start m).after calls).machine.clock) ∧
        vs.map (some ·.timeless) = traces.map (c.verdict? resolver.resolve)) ∧
    ∀ trace, ((start m).after calls).machine.Hit resolver k trace →
      ((∀ traces : List Trace,
        (∀ trace ∈ traces, ((start m).after calls).machine.Hit resolver k trace) →
        ∀ bound vs done,
          ((start m).after (calls ++ traces.map .push)).machine.Yields bound k vs done →
          ∃ first, vs.map (·.cycle) = List.range' first traces.length) ↔
        c.l1.hitLatency.toNat + 2 ≤ c.checker.queueSize.toNat) := by
  have hyields := yields_of_hits hnew hresolver hfit calls hidle hk
  refine ⟨hyields, fun trace hhit => ?_⟩
  rw [← Config.hitCycle_steady_iff (Machine.of_new hnew).1 ((start m).after calls).machine.clock]
  constructor
  · intro hsteady n
    have hhits : ∀ other ∈ List.replicate n trace,
        ((start m).after calls).machine.Hit resolver k other := by
      intro other hother
      rw [List.eq_of_mem_replicate hother]
      exact hhit
    obtain ⟨vs, done, hdone, hcycles, -⟩ := hyields _ hhits
    obtain ⟨first, hfirst⟩ := hsteady _ hhits _ vs done hdone
    rw [List.length_replicate] at hcycles hfirst
    exact ⟨first, hcycles.symm.trans hfirst⟩
  · intro hsteady traces hhits bound vs done hdone
    obtain ⟨ws, done', hdone', hcycles, -⟩ := hyields traces hhits
    have hlength := (regular hnew hresolver hfit (calls ++ traces.map .push)).shaped.length
    rw [hdone.verdicts_unique hdone' (hk.trans_eq hlength.symm), hcycles]
    exact hsteady traces.length

/-- The first load brings the entry into the cache.  Then a checker with room for two traces is
given three hits, so the last one has to wait for a cycle. -/
theorem hit_throughput_three_hits :
    ∃ m resolver vs done, Machine.new { checker := { queueSize := 2 } } = .ok m ∧
      Resolver.ofConfig { checker := { queueSize := 2 } } = .ok resolver ∧
      ((start m).after [.push (.load 1 0xFEFFFFC8 4), .run 100, .push (.load 2 0xFEFFFFC8 4),
        .push (.store 3 0xFEFFFFC8 4), .push (.load 4 0xFEFFFFC8 8)]).machine.Yields 23 0 vs done ∧
      vs.map (·.cycle) = [18, 19, 21] := by
  obtain ⟨vs, done, hdone, hcycles, -⟩ :=
    (hit_throughput (c := { checker := { queueSize := 2 } }) (k := 0) rfl rfl (by decide)
      [.push (.load 1 0xFEFFFFC8 4), .run 100] (by decide +kernel) (by decide)).1
      [.load 2 0xFEFFFFC8 4, .store 3 0xFEFFFFC8 4, .load 4 0xFEFFFFC8 8] (by decide +kernel)
  exact ⟨_, _, vs, done, rfl, rfl, hdone, hcycles⟩

end Drive

end BoundsCheck
