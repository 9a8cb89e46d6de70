import BoundsCheck.Proofs.Lane

/-!
# Lookups below a core

What is under way below a core determines, together with the course of its traces, what a lane does
next: a part of the lane to which nothing is visible does nothing but count.

* `Flight` — what is under way below a core.
* `Lane.Carries` — a lane with a given course above and a given flight below.
* `Flight.Quiet`, `Lane.Carries.cycle` — as long as nothing is visible below, only the core gets on.
* `Lane.Waits`, `Lane.Waits.leads` — a lane on which nothing happens until a certain cycle.
* `Drive.yields_of_idle` — from a machine with nothing left to do to the end of the lane of a core.
-/

set_option autoImplicit false

namespace BoundsCheck

open Lookup

/-- What is under way below a core, and which entries the shared cache holds, as far as that matters
any more. -/
structure Flight where
  /-- Above the switch. -/
  link : Lookup.Link := {}
  /-- Above the shared cache. -/
  port : Lookup.Link := {}
  /-- The lookups that wait in the shared cache. -/
  misses : MissTable := {}
  /-- Above the table. -/
  table : Lookup.Link := {}
  held : Option (BufferId → Bool) := none

namespace Flight

/-- Something is under way. -/
def busy (f : Flight) : Bool :=
  f.link.hasPending || f.port.hasPending || !f.misses.isEmpty || f.table.hasPending

/-- Nothing is visible to any part of the lane below the core, and a switch with a single input has
nothing to pass through. -/
structure Quiet (c : Config) (now : Nat) (f : Flight) : Prop where
  asked : f.link.requests.pop? now = none
  answered : f.link.responses.pop? now = none
  passed : f.port.requests.pop? now = none
  returned : f.port.responses.pop? now = none
  looked : f.table.requests.pop? now = none
  found : f.table.responses.pop? now = none
  single : c.cores.toNat = 1 → f.link.requests = {} ∧ f.port.responses = {}

/-- Where nothing is under way, nothing is visible. -/
theorem quiet_default (c : Config) (now : Nat) (held : Option (BufferId → Bool)) :
    ({ held := held } : Flight).Quiet c now :=
  ⟨rfl, rfl, rfl, rfl, rfl, rfl, fun _ => ⟨rfl, rfl⟩⟩

end Flight

theorem Port.drain_of_pop?_eq_none {α : Type} {p : Port α} {now : Nat} (h : p.pop? now = none) :
    p.drain now = ([], p) := by
  obtain ⟨_ | ⟨packet, packets⟩⟩ := p
  · rfl
  · have hlate : ¬ packet.ready ≤ now := by
      rintro hready
      rw [Port.pop?_eq_some_iff.mpr ⟨rfl, hready⟩] at h
      cases h
    simp only [Port.drain, List.takeWhile_cons, List.dropWhile_cons, decide_eq_true_eq, hlate,
      if_false]

/-- A table to which nothing is visible stays as it is. -/
theorem RangeTable.cycle_of_idle {t : RangeTable} {now : Nat}
    (h : t.port.requests.pop? now = none) : t.cycle now = t := by
  rw [cycle, Port.drain_of_pop?_eq_none h]
  rfl

namespace Lane

/-- The traces of the core are on the given course, and what is under way below it is the given
flight. -/
structure Carries (c : Config) (resolver : Resolver) (k : Nat) (earlier : List Verdict) (w : Course)
    (f : Flight) (l : Lane) : Prop where
  core : l.core.Carries c resolver k earlier w
  link : l.link = f.link
  port : l.l2.port = f.port
  misses : l.l2.misses = f.misses
  table : l.table.port = f.table
  held : ∀ held ∈ f.held, ∀ id, l.l2.lines.contains id = held id
  knows : l.l2.Knows c.answerFor
  config : l.l2.config = c.l2
  entries : l.table.entries = c.table.entries
  latency : l.table.latency = c.table.latency

variable {c : Config} {resolver : Resolver} {k now : Nat} {earlier : List Verdict} {w : Course}
  {f : Flight} {l : Lane}

/-- A lane is busy as long as something is left of its course or of its flight. -/
theorem Carries.busy (h : l.Carries c resolver k earlier w f) : l.busy = (!w.isDone || f.busy) := by
  rw [Lane.busy, RangeCache.busy, RangeTable.busy, h.core.busy, h.link, h.port, h.misses, h.table,
    Flight.busy]
  simp only [Bool.or_assoc]

/-- It may no longer matter which entries the shared cache holds. -/
theorem Carries.forget (h : l.Carries c resolver k earlier w f) :
    l.Carries c resolver k earlier w { f with held := none } :=
  ⟨h.core, h.link, h.port, h.misses, h.table, fun _ hnone => absurd hnone (Option.not_mem_none _),
    h.knows, h.config, h.entries, h.latency⟩

/-! ## Parts to which nothing is visible -/

theorem Carries.cycleTable_of_idle (h : l.Carries c resolver k earlier w f) (now : Nat)
    (hlooked : f.table.requests.pop? now = none) :
    (l.cycleTable now).Carries c resolver k earlier w f := by
  rw [← h.table] at hlooked
  rw [cycleTable, RangeTable.cycle_of_idle hlooked]
  exact h

theorem Carries.cycleL2_of_idle (h : l.Carries c resolver k earlier w f) (now : Nat)
    (hfound : f.table.responses.pop? now = none) (hpassed : f.port.requests.pop? now = none) :
    (l.cycleL2 now).Carries c resolver k earlier w f := by
  rw [← h.table] at hfound
  rw [← h.port] at hpassed
  rw [cycleL2, RangeCache.cycle_of_idle hfound hpassed]
  exact ⟨h.core, h.link, h.port, h.misses, h.table, h.held, h.knows, h.config, h.entries, h.latency⟩

/-- Nothing happens below the switch. -/
theorem Carries.below_of_idle (h : l.Carries c resolver k earlier w f) (now : Nat)
    (hlooked : f.table.requests.pop? now = none) (hfound : f.table.responses.pop? now = none)
    (hpassed : f.port.requests.pop? now = none) :
    ((l.cycleTable now).cycleL2 now).Carries c resolver k earlier w f :=
  (h.cycleTable_of_idle now hlooked).cycleL2_of_idle now hfound hpassed

/-- The cache of the core goes on by itself. -/
theorem Carries.cycleL1_of_idle (h : l.Carries c resolver k earlier w f) (now : Nat)
    (hanswered : f.link.responses.pop? now = none)
    (hheld : ∀ leg ∈ w.asked, ∃ id, leg.trace.concerns resolver.resolve id = true ∧
      w.held id = true) : (l.cycleL1 now).Carries c resolver k earlier (w.hit now) f := by
  rw [← h.link] at hanswered
  obtain ⟨hcore, hlink⟩ := h.core.hit hanswered hheld
  exact ⟨hcore, hlink.trans h.link, h.port, h.misses, h.table, h.held, h.knows, h.config, h.entries,
    h.latency⟩

/-- A switch that passes everything through. -/
theorem Carries.passThrough (h : l.Carries c resolver k earlier w f) :
    l.passThrough.Carries c resolver k earlier w { f with
      link := ⟨{}, (f.port.responses.moveInto f.link.responses).2⟩
      port := ⟨(f.link.requests.moveInto f.port.requests).2, {}⟩ } := by
  refine ⟨h.core, ?_, ?_, h.misses, h.table, h.held, h.knows, h.config, h.entries, h.latency⟩
  · rw [← h.link, ← h.port]
    rfl
  · rw [← h.link, ← h.port]
    rfl

theorem Carries.deliver_of_idle (h : l.Carries c resolver k earlier w f)
    (hreturned : f.port.responses.pop? now = none) (shift : Nat) : l.deliver shift now = l := by
  rw [← h.port] at hreturned
  rw [deliver, hreturned]

theorem Carries.grant_of_idle (h : l.Carries c resolver k earlier w f)
    (hasked : f.link.requests.pop? now = none) (shift input delay : Nat) :
    l.grant shift input delay now = l := by
  rw [← h.link] at hasked
  rw [grant, hasked]

theorem Carries.relay_of_idle (h : l.Carries c resolver k earlier w f) (now : Nat)
    (hasked : f.link.requests.pop? now = none) (hreturned : f.port.responses.pop? now = none)
    (hsingle : c.cores.toNat = 1 → f.link.requests = {} ∧ f.port.responses = {}) :
    (l.relay c k now).Carries c resolver k earlier w f := by
  rw [relay]
  split
  · rename_i hone
    obtain ⟨hrequests, hresponses⟩ := hsingle hone
    have hpassed := h.passThrough
    rw [hrequests, hresponses] at hpassed
    simp only [Port.moveInto, List.append_nil] at hpassed
    rw [← hrequests, ← hresponses] at hpassed
    exact hpassed
  · rw [h.deliver_of_idle hreturned, h.grant_of_idle hasked]
    exact h

/-- The core goes on above its cache. -/
theorem Carries.above (h : l.Carries c resolver k earlier w f) (hc : c.Accepted)
    (hknown : ∀ leg ∈ w.input, ∃ id, leg.trace.concerns resolver.resolve id = true) (now : Nat) :
    ((l.check now).exchange now).Carries c resolver k earlier (w.work c now) f :=
  ⟨(h.core.check hc hknown now).exchange now, h.link, h.port, h.misses, h.table, h.held, h.knows,
    h.config, h.entries, h.latency⟩

/-- **As long as nothing is visible below a core, only the core gets on**, if its cache answers all
that it is asked. -/
theorem Carries.cycle (h : l.Carries c resolver k earlier w f) (hc : c.Accepted)
    (hquiet : f.Quiet c now)
    (hheld : ∀ leg ∈ w.asked, ∃ id, leg.trace.concerns resolver.resolve id = true ∧
      w.held id = true)
    (hknown : ∀ leg ∈ w.input, ∃ id, leg.trace.concerns resolver.resolve id = true) {next : Course}
    (hnext : (w.hit now).work c now = next) :
    (l.cycle c k now).Carries c resolver k earlier next f := by
  have hbelow := h.below_of_idle now hquiet.looked hquiet.found hquiet.passed
  have hl1 := hbelow.cycleL1_of_idle now hquiet.answered hheld
  have hrelay := hl1.relay_of_idle now hquiet.asked hquiet.returned hquiet.single
  rw [← hnext]
  exact hrelay.above hc hknown now

/-! ## Waiting -/

/-- Up to the given cycle nothing happens on the lane. -/
def Waits (c : Config) (resolver : Resolver) (k : Nat) (earlier : List Verdict) (w : Course)
    (f : Flight) (due now : Nat) (l : Lane) : Prop :=
  now ≤ due ∧ l.Carries c resolver k earlier w f

/-- **A lane that waits** comes to what the first cycle in which something happens comes to. -/
theorem Waits.leads {due : Nat} {Q : Nat → Lane → Prop} (hc : c.Accepted)
    (hbusy : (!w.isDone || f.busy) = true)
    (hstill : ∀ now < due, f.Quiet c now ∧ (w.hit now).work c now = w)
    (hasked : w.asked = []) (hinput : w.input = [])
    (hact : ∀ l : Lane, l.Carries c resolver k earlier w f → Q (due + 1) (l.cycle c k due)) :
    LeadsTo c k (Waits c resolver k earlier w f due) Q := by
  have hwait : LeadsTo c k (Waits c resolver k earlier w f due)
      (fun now l => now = due ∧ l.Carries c resolver k earlier w f) := by
    refine LeadsTo.until fun now l hlate h => ⟨h.busy.trans hbusy, ?_⟩
    obtain ⟨hquiet, hsame⟩ := hstill now hlate
    exact h.cycle hc hquiet (by simp [hasked]) (by simp [hinput]) hsame
  refine hwait.trans (LeadsTo.of_cycle ?_)
  rintro now l ⟨rfl, h⟩
  exact ⟨h.busy.trans hbusy, hact l h⟩

end Lane

/-! ## From a machine at rest and back -/

/-- **A machine with nothing left to do that is given traces for one core** comes to what the lane
of this core comes to, and the lane starts with these traces in front of it. -/
theorem Drive.yields_of_idle {c : Config} {m : Machine} {resolver : Resolver}
    (hnew : Machine.new c = .ok m) (hresolver : Resolver.ofConfig c = .ok resolver)
    (hfit : c.TagsFit) (calls : List Call)
    (hidle : ((start m).after calls).machine.busy = false) {k : Nat} (hk : k < c.cores.toNat)
    {traces : List Trace} (htraces : ∀ trace ∈ traces, trace.coreId.toNat = k) :
    ∃ (core : Core) (l : Lane), ((start m).after calls).machine.cores[k]? = some core ∧
      l.Carries c resolver k core.checker.verdicts
        { queue := traces, held := core.l1.lines.contains }
        { held := ((start m).after calls).machine.l2.lines.contains } ∧
      ∀ {now' : Nat} {l' : Lane} {vs : List Verdict},
        Relation.ReflTransGen (Lane.Step c k) (((start m).after calls).machine.clock, l)
          (now', l') → l'.busy = false →
        l'.core.checker.verdicts = core.checker.verdicts ++ vs →
        ∃ done, ((start m).after (calls ++ traces.map .push)).machine.Yields now' k vs done ∧
          done.clock = now' := by
  have hc := (Machine.of_new hnew).1
  have hregular := regular hnew hresolver hfit calls
  obtain ⟨core, hcore, hatrest, halone, hl2, htable⟩ := hregular.exists_alone hidle hk
  obtain ⟨hpushed, hclock⟩ := halone.after_pushes htraces
  have hafter : ((start m).after calls).after (traces.map .push)
      = (start m).after (calls ++ traces.map .push) := (List.foldl_append).symm
  rw [hafter] at hpushed hclock
  have hcarries := hatrest.carries (hregular.shaped.cores k core hcore)
    (hregular.balanced.cores k core hcore).sound
    (hregular.honest.cores core (List.mem_of_getElem? hcore)) traces
  refine ⟨core, ⟨{ core with queue := core.queue ++ traces }, {}, _, _⟩, hcore,
    ⟨hcarries, rfl, hl2.port, hl2.misses, htable, fun held hheld id => ?_, hregular.honest.l2,
      hregular.shaped.l2, hregular.shaped.entries, hregular.shaped.latency⟩,
    fun hsteps hdone hverdicts => ?_⟩
  · rw [← Option.some.inj hheld]
  · rw [← hclock] at hsteps
    exact hpushed.yields (Machine.othersAtRest hidle k) hc hfit
      (regular hnew hresolver hfit (calls ++ traces.map .push))
      (bypassIfSingle hnew (calls ++ traces.map .push)) hsteps hdone hverdicts

end BoundsCheck
