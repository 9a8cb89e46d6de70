import BoundsCheck.Hazard
import BoundsCheck.Proofs.Regular
import BoundsCheck.Proofs.Relaying

/-!
# Safety

A machine in use never fails in a way that whoever uses it could not foresee.  No cycle is cut short
and none has a hazard; a trace is refused only if it names a core that does not exist, and a run
ends early only if it takes too long.

* `Switch.Shape.hazards_eq_nil`, `Checker.Sound.hazards_eq_nil` and so on — no component has a
  hazard in a regular machine.
* `Machine.Regular.cycleHazards_eq_nil` — so neither has a cycle.
* `Machine.Safe` — all that cannot go wrong, and what can.
* `Drive.always_safe` — every machine in use is safe.
-/

set_option autoImplicit false

namespace BoundsCheck

open Lookup Hazard

/-! ## Single steps -/

namespace Hazard

theorem ofDelay_eq_nil {delay : UInt64} (h : delay ≠ 0) : ofDelay delay = [] := if_neg h

theorem ofAge_eq_nil {now sent : Nat} (h : sent < now) : ofAge now sent = [] :=
  if_neg (Nat.not_lt.mpr (Nat.le_of_lt h))

theorem ofInput_eq_nil {input inputs : Nat} (h : input < inputs) : ofInput input inputs = [] :=
  if_pos h

end Hazard

/-! ## Components -/

theorem RangeTable.hazards_eq_nil {t : RangeTable} (hlatency : t.latency ≠ 0)
    (htimely : t.port.requests.Timely) (now : Nat) : t.hazards now = [] := by
  rw [hazards, List.flatMap_eq_nil_iff]
  intro packet hpacket
  rw [ofAge_eq_nil (htimely.sent_lt_of_mem_drain hpacket), ofDelay_eq_nil hlatency]
  rfl

theorem RangeCache.hazards_eq_nil {c : RangeCache} (hc : c.config.Accepted)
    (htimely : c.port.requests.Timely) (now : Nat) (lower : Lookup.Link) :
    c.hazards now lower = [] := by
  have hresponse : c.responseHazards now lower = [] := by
    rw [responseHazards]
    split
    · rfl
    · split
      · rfl
      · rw [ofDelay_eq_nil hc.hitLatency, List.flatMap_eq_nil_iff]
        intro _ _
        rfl
  obtain ⟨habove, -⟩ := requests_takeResponse now lower c
  have hconfig := config_takeResponse now lower c
  rw [hazards, hresponse, List.nil_append, requestHazards, habove]
  split
  · rfl
  · rename_i packet rest hpop
    rw [ofAge_eq_nil (htimely.sent_lt hpop), List.nil_append, accessHazards, hconfig,
      ofDelay_eq_nil hc.hitLatency, ofDelay_eq_nil hc.forwardingLatency]
    split
    · rfl
    · split <;> rfl

namespace Switch

variable {inputs : Nat} {s : Switch}

theorem Shape.grantHazards_eq_nil (h : s.Shape inputs) (hdelay : s.delay ≠ 0) (now : Nat)
    {arbiter : Arbiter} (ha : arbiter.inputs = inputs) : s.grantHazards now arbiter = [] := by
  have hasked : (arbiter.order.takeWhile (!s.requestVisible now ·)).flatMap
      (ofInput · s.inputs.length) = [] := by
    rw [List.flatMap_eq_nil_iff]
    intro input hinput
    have hlt := Arbiter.mem_order_iff.mp (List.takeWhile_subset _ hinput)
    rw [ha, ← h.links] at hlt
    exact ofInput_eq_nil hlt
  rw [grantHazards, hasked, List.nil_append]
  split
  · rfl
  · rename_i input hwinner
    have hlt := Arbiter.mem_order_iff.mp (List.mem_of_find?_eq_some hwinner)
    rw [ha, ← h.grants] at hlt
    rw [ofInput_eq_nil hlt, ofDelay_eq_nil hdelay]
    rfl

theorem Shape.hazards_eq_nil (h : s.Shape inputs) (hdelay : s.delay ≠ 0) (now : Nat)
    (lower : Lookup.Link) : s.hazards now lower = [] := by
  rw [hazards]
  split
  · rw [passHazards, h.links, h.grants, h.responses, ofInput_eq_nil h.pos]
    rfl
  · rename_i arbiter hmode
    have hroute : s.routeHazards now lower = [] := by
      simp only [routeHazards, h.links, h.responses]
      split
      · rfl
      · split
        · rename_i hlt
          exact ofInput_eq_nil hlt
        · rfl
    simp only [hroute, List.nil_append]
    split
    · refine (h.route now lower).grantHazards_eq_nil ?_ now (h.inputs_arbiter hmode)
      rwa [delay_route]
    · rfl

end Switch

theorem Checker.Sound.hazards_eq_nil {c : Checker} {l1 : Lookup.Link} {rest : Multiset Request}
    (h : c.Sound (underway l1 + rest)) (now : Nat) : c.hazards now l1 = [] := by
  rw [hazards]
  split
  · rfl
  · rename_i packet others hpop
    split
    · rfl
    · rename_i slot hget
      have hone := h.single _ ((SlotTable.mem_held_iff h.slots.capacity).mpr hget)
      have hused := h.slots.used_pos hget
      rw [if_neg (by rw [hone]; exact Nat.one_ne_zero), if_neg fun hzero => by omega]
      rfl

/-! ## Cycles -/

namespace Machine

variable {c : Config} {resolver : Resolver} {m : Machine}

theorem checkerHazards_eq_nil {now : Nat} {cores : List Core}
    (h : ∀ core ∈ cores, core.checker.hazards now core.l1.port = []) :
    Core.checkerHazards now cores = [] := by
  induction cores with
  | nil => rfl
  | cons core cores ih =>
    rw [Core.checkerHazards, h core List.mem_cons_self,
      ih fun other hmem => h other (List.mem_cons_of_mem _ hmem)]
    split <;> rfl

theorem Regular.cacheHazards_eq_nil (h : m.Regular c resolver) (hc : c.Accepted) (now : Nat) :
    Core.cacheHazards now m.cores m.switch.inputs = [] := by
  rw [Core.cacheHazards, List.flatMap_eq_nil_iff]
  rintro ⟨core, lower⟩ hmem
  have hcore := (List.of_mem_zip hmem).1
  obtain ⟨i, hi⟩ := List.getElem?_of_mem hcore
  refine RangeCache.hazards_eq_nil ?_ (Links.cores h.prompt core hcore) now lower
  rw [(h.shaped.cores i core hi).l1]
  exact hc.l1

/-- **No cycle of a regular machine has a hazard.** -/
theorem Regular.cycleHazards_eq_nil (h : m.Regular c resolver) (hc : c.Accepted)
    (hfit : c.TagsFit) : m.cycleHazards = [] := by
  obtain ⟨herror, hswitched⟩ := h.switched hc hfit
  have hlooked := h.looked hc
  have htable : m.table.hazards m.clock = [] :=
    RangeTable.hazards_eq_nil (by rw [h.shaped.latency]; exact hc.latency)
      (Links.table h.prompt) m.clock
  have hl2 : m.l2.hazards m.clock m.cycleTable.table.port = [] :=
    RangeCache.hazards_eq_nil (by rw [h.shaped.l2]; exact hc.l2) (Links.l2 h.prompt) m.clock _
  have hswitch : m.looked.switch.hazards m.clock m.looked.l2.port = [] :=
    hlooked.shaped.switch.hazards_eq_nil (by rw [hlooked.shaped.delay]; exact hc.delay) _ _
  have hcheckers : Core.checkerHazards m.clock m.switched.cores = [] := by
    refine checkerHazards_eq_nil fun core hcore => ?_
    obtain ⟨i, hi⟩ := List.getElem?_of_mem hcore
    exact (hswitched.balanced.cores i core hi).sound.hazards_eq_nil m.clock
  change m.table.hazards m.clock ++ m.l2.hazards m.clock m.cycleTable.table.port
    ++ Core.cacheHazards m.clock m.cores m.switch.inputs
    ++ m.looked.switch.hazards m.clock m.looked.l2.port
    ++ (if m.looked.cycleSwitch.error?.isNone then
      Core.checkerHazards m.clock m.switched.cores else []) = []
  rw [htable, hl2, h.cacheHazards_eq_nil hc, hswitch, hcheckers, herror]
  rfl

/-! ## Runs -/

theorem Regular.runHazards_eq_nil (h : m.Regular c resolver) (hc : c.Accepted) (hfit : c.TagsFit)
    (fuel : Nat) : m.runHazards fuel = [] := by
  induction fuel generalizing m with
  | zero =>
    rw [runHazards]
    split <;> rfl
  | succ fuel ih =>
    rw [runHazards]
    split
    · rw [h.cycleHazards_eq_nil hc hfit, ih (h.cycle hc hfit), List.nil_append]
      split <;> rfl
    · rfl

/-- A run of a regular machine ends when nothing is left to do, or when it takes too long. -/
theorem Regular.error?_runFor (h : m.Regular c resolver) (hc : c.Accepted) (hfit : c.TagsFit)
    (fuel : Nat) :
    (m.runFor fuel).error? = none ∨
      (m.runFor fuel).error? = some (.deadlock (m.clock + fuel)) := by
  induction fuel generalizing m with
  | zero =>
    rw [runFor]
    split
    · exact .inr rfl
    · exact .inl rfl
  | succ fuel ih =>
    by_cases hbusy : m.busy = true
    · rw [h.runFor_succ hc hfit hbusy]
      refine (ih (h.cycle hc hfit)).imp id fun hlate => hlate.trans ?_
      rw [h.clock_cycle hc hfit, Nat.add_assoc, Nat.add_comm 1 fuel]
    · rw [runFor, if_neg hbusy]
      exact .inl rfl

/-! ## Calls -/

/-- All that cannot go wrong with a machine, and what can. -/
structure Safe (c : Config) (m : Machine) : Prop where
  /-- No cycle is cut short. -/
  cycle : m.cycle.error? = none
  /-- No call has a hazard. -/
  hazards : ∀ call, m.callHazards call = []
  /-- No checker has more traces than it has slots. -/
  room : ∀ core ∈ m.cores,
    core.checker.inFlight + core.checker.input.length ≤ core.checker.capacity
  /-- A trace is refused exactly if there is no core for it. -/
  push : ∀ trace, (m.push trace).error? =
    if trace.coreId.toNat < c.cores.toNat then none
    else some (.invalidCore trace.coreId.toNat c.cores.toNat)
  /-- A run fails only if the machine is busy for too long. -/
  run : ∀ limit, (m.run limit).error? = none ∨
    (m.run limit).error? = some (.deadlock (max m.clock limit))

theorem Regular.error?_push (h : m.Regular c resolver) (trace : Trace) :
    (m.push trace).error? =
      if trace.coreId.toNat < c.cores.toNat then none
      else some (.invalidCore trace.coreId.toNat c.cores.toNat) := by
  rw [← h.shaped.length]
  obtain ⟨core, hcore, heq⟩ | ⟨hle, heq⟩ := m.push_cases trace
  · rw [heq, if_pos (List.getElem?_eq_some_iff.mp hcore).1]
    rfl
  · rw [heq, if_neg (Nat.not_lt.mpr hle)]
    rfl

theorem Regular.safe (h : m.Regular c resolver) (hc : c.Accepted) (hfit : c.TagsFit) :
    m.Safe c where
  cycle := by
    rw [h.cycle_eq hc hfit]
    rfl
  hazards call := by
    cases call with
    | cycle => exact h.cycleHazards_eq_nil hc hfit
    | run limit => exact h.runHazards_eq_nil hc hfit _
    | push trace => rfl
    | takeCompleted => rfl
    | takeVerdicts => rfl
    | reset => rfl
  room core hcore := by
    obtain ⟨i, hi⟩ := List.getElem?_of_mem hcore
    exact (h.balanced.cores i core hi).sound.room
  push := h.error?_push
  run limit := by
    refine (h.error?_runFor hc hfit (limit - m.clock)).imp id fun hlate => hlate.trans ?_
    have hmax : m.clock + (limit - m.clock) = max m.clock limit := by omega
    rw [hmax]

end Machine

/-- **Nothing that whoever uses a machine could not foresee goes wrong**, whatever was asked of the
machine before. -/
theorem Drive.always_safe {c : Config} {m : Machine} (hnew : Machine.new c = .ok m)
    (hfit : c.TagsFit) (calls : List Call) : ((start m).after calls).machine.Safe c := by
  obtain ⟨hc, resolver, hresolver, -⟩ := Machine.of_new hnew
  exact (Drive.regular hnew hresolver hfit calls).safe hc hfit

/-- Three cores with two slots each, where a trace was refused and a run took too long. -/
theorem Drive.always_safe_three_cores :
    ∃ m, Machine.new { cores := 3, checker := { queueSize := 2 } } = .ok m ∧
      ((start m).after [.push (.load 1 0xFEFFFFC8 4), .push (.load 2 0xFEFFFFBC 4),
        .push (.store 3 0x8000A820 4),
        .push { uuid := 4, coreId := 3, kind := .load, blocks := [[⟨0xFEFFFFC8, 4⟩]] },
        .run 5]).machine.Safe { cores := 3, checker := { queueSize := 2 } } :=
  ⟨_, rfl, Drive.always_safe rfl (by decide) _⟩

end BoundsCheck
