import Mathlib.Order.Bounds.Basic
import BoundsCheck.Proofs.Draining

/-!
# The limit of a run

A run is nothing but cycles.  It ends as soon as nothing is left to do; if that is not so by its
limit it ends early, and then it can be taken up again where it stopped.  However a run is cut into
pieces, it ends the same way.

* `Machine.Paced` — how runs of a machine end.
* `Machine.Regular.run_run` — a run that follows another one ends as if it had been the only one.
* `Drive.budget_only_pauses` — all runs of a machine in use end like this.
-/

set_option autoImplicit false

namespace BoundsCheck

namespace Machine

variable {c : Config} {resolver : Resolver} {m : Machine}

/-! ## How runs end -/

/-- The numbers of the cycles that a machine comes to with nothing left to do. -/
def idleClocks (m : Machine) : Set Nat :=
  {clock | ∃ n, (m.cycles n).busy = false ∧ (m.cycles n).clock = clock}

/-- How the runs of a machine end.  What a run answers is the number of the cycle it stopped
before. -/
structure Paced (m : Machine) : Prop where
  /-- No cycle that the machine comes to is cut short. -/
  cycles : ∀ n, (m.cycles n).cycle.error? = none
  /-- A run that is given the time succeeds as soon as nothing is left to do. -/
  finished : ∀ limit, (∃ clock ∈ m.idleClocks, clock ≤ max limit m.clock) →
    (m.run limit).error? = none ∧ IsLeast m.idleClocks (m.run limit).state.clock
  /-- Any other run is broken off at its limit, or at once if that has passed. -/
  brokenOff : ∀ limit, (¬ ∃ clock ∈ m.idleClocks, clock ≤ max limit m.clock) →
    (m.run limit).error? = some (.deadlock (max limit m.clock)) ∧
      (m.run limit).state.clock = max limit m.clock
  /-- Either way nothing was done but cycles. -/
  state : ∀ limit, (m.run limit).state = m.cycles ((m.run limit).state.clock - m.clock)
  /-- A run that follows another one ends as if it had been the only one. -/
  resumed : ∀ {limit more}, limit ≤ more → (m.run limit).state.run more = m.run more
  /-- A run that succeeded would have succeeded with a higher limit, no later. -/
  lasting : ∀ {limit more}, limit ≤ more → (m.run limit).error? = none → m.run more = m.run limit

theorem Regular.mem_idleClocks (h : m.Regular c resolver) (hc : c.Accepted) (hfit : c.TagsFit)
    {clock : Nat} :
    clock ∈ m.idleClocks ↔ ∃ n, (m.cycles n).busy = false ∧ m.clock + n = clock := by
  refine exists_congr fun n => ?_
  rw [h.clock_cycles hc hfit]

/-- The two ways in which a run ends, for a run with a limit. -/
theorem Regular.run_cases (h : m.Regular c resolver) (hc : c.Accepted) (hfit : c.TagsFit)
    (limit : Nat) :
    (∃ n, m.clock + n ≤ max limit m.clock ∧ (m.cycles n).busy = false ∧
      (∀ k < n, (m.cycles k).busy = true) ∧ m.run limit = .ok (m.cycles n)) ∨
    ∃ n, m.clock + n = max limit m.clock ∧ (∀ k < n + 1, (m.cycles k).busy = true) ∧
      m.run limit = .fail (m.cycles n) (.deadlock (m.clock + n)) := by
  obtain ⟨n, hn, hdone, hbefore, hrun⟩ | ⟨hall, hrun⟩ := h.runFor_cases hc hfit (limit - m.clock)
  · exact .inl ⟨n, by omega, hdone, hbefore, hrun⟩
  · exact .inr ⟨limit - m.clock, by omega, hall, hrun⟩

/-- **A run that follows another one ends as if it had been the only one.** -/
theorem Regular.run_run (h : m.Regular c resolver) (hc : c.Accepted) (hfit : c.TagsFit)
    {limit more : Nat} (hle : limit ≤ more) : (m.run limit).state.run more = m.run more := by
  -- both runs go through the cycles of the first one
  have hgoes : ∀ n, m.clock + n ≤ max limit m.clock → (∀ k < n, (m.cycles k).busy = true) →
      (m.cycles n).run more = m.run more := by
    intro n hn hbusy
    have hfuel : more - m.clock = n + (more - (m.clock + n)) := by omega
    rw [run, run, h.clock_cycles hc hfit, hfuel, h.runFor_add hc hfit hbusy]
  obtain ⟨n, hn, -, hbefore, hrun⟩ | ⟨n, hn, hall, hrun⟩ := h.run_cases hc hfit limit
  · rw [hrun]
    exact hgoes n hn hbefore
  · rw [hrun]
    exact hgoes n hn.le fun k hk => hall k (Nat.lt_succ_of_lt hk)

/-- A machine comes to nothing to do soon enough exactly if the cycles before are over by then. -/
theorem Regular.not_soon_of_busy (h : m.Regular c resolver) (hc : c.Accepted) (hfit : c.TagsFit)
    {n : Nat} (hall : ∀ k < n + 1, (m.cycles k).busy = true) :
    ¬ ∃ clock ∈ m.idleClocks, clock ≤ m.clock + n := by
  rintro ⟨clock, hidle, hle⟩
  obtain ⟨k, hdone, rfl⟩ := (h.mem_idleClocks hc hfit).mp hidle
  rw [hall k (by omega)] at hdone
  cases hdone

theorem Regular.paced (h : m.Regular c resolver) (hc : c.Accepted) (hfit : c.TagsFit) :
    m.Paced where
  cycles n := by
    rw [(h.cycles hc hfit n).cycle_eq hc hfit]
    rfl
  finished limit hsoon := by
    obtain ⟨n, -, hdone, hbefore, hrun⟩ | ⟨n, hn, hall, -⟩ := h.run_cases hc hfit limit
    · rw [hrun]
      refine ⟨rfl, ⟨n, hdone, rfl⟩, fun clock hidle => ?_⟩
      obtain ⟨k, hdone', rfl⟩ := (h.mem_idleClocks hc hfit).mp hidle
      have hle : n ≤ k := by
        by_contra hlt
        rw [hbefore k (Nat.lt_of_not_le hlt)] at hdone'
        cases hdone'
      rw [Outcome.state_ok, h.clock_cycles hc hfit]
      exact Nat.add_le_add_left hle m.clock
    · rw [← hn] at hsoon
      exact absurd hsoon (h.not_soon_of_busy hc hfit hall)
  brokenOff limit hlate := by
    obtain ⟨n, hn, hdone, -, -⟩ | ⟨n, hn, -, hrun⟩ := h.run_cases hc hfit limit
    · exact absurd ⟨_, (h.mem_idleClocks hc hfit).mpr ⟨n, hdone, rfl⟩, hn⟩ hlate
    · rw [hrun, ← hn]
      exact ⟨rfl, h.clock_cycles hc hfit n⟩
  state limit := by
    obtain ⟨n, -, -, -, hrun⟩ | ⟨n, -, -, hrun⟩ := h.run_cases hc hfit limit
    · rw [hrun, Outcome.state_ok, h.clock_cycles hc hfit, Nat.add_sub_cancel_left]
    · rw [hrun, Outcome.state_fail, h.clock_cycles hc hfit, Nat.add_sub_cancel_left]
  resumed hle := h.run_run hc hfit hle
  lasting {limit more} hle hdone := by
    rw [← h.run_run hc hfit hle]
    obtain ⟨n, -, hdone', -, hrun⟩ | ⟨n, -, -, hrun⟩ := h.run_cases hc hfit limit
    · rw [hrun]
      exact runFor_of_not_busy hdone' _
    · rw [hrun] at hdone
      cases hdone

end Machine

namespace Drive

variable {c : Config} {m : Machine}

/-- **The limit of a run only pauses it**, whatever was asked of the machine before. -/
theorem budget_only_pauses (hnew : Machine.new c = .ok m) (hfit : c.TagsFit) (calls : List Call) :
    ((start m).after calls).machine.Paced := by
  obtain ⟨hc, resolver, hresolver, -⟩ := Machine.of_new hnew
  exact (Drive.regular hnew hresolver hfit calls).paced hc hfit

/-- Two cores under way: a run is broken off before the cycle with the number 6, and the next one
finishes it, as a single one would have. -/
theorem budget_only_pauses_two_cores :
    ∃ m, Machine.new { cores := 2, switch := { policy := .priority } } = .ok m ∧
      let calls := [.push (.load 1 0xFEFFFFC8 4),
        .push { uuid := 2, coreId := 1, kind := .store, blocks := [[⟨0x8000A820, 4⟩]] },
        .cycle, .run 3, .takeVerdicts]
      let d := ((start m).after calls).machine
      d.Paced ∧ (d.run 6).error? = some (.deadlock 6) ∧ (d.run 6).state.run 40 = d.run 40 ∧
        (d.run 40).error? = none ∧ d.run 50 = d.run 40 :=
  have hfit : Config.TagsFit { cores := 2, switch := { policy := .priority } } := by decide
  have hpaced := budget_only_pauses rfl hfit _
  have hdone := by decide +kernel
  ⟨_, rfl, hpaced, by decide +kernel, hpaced.resumed (by decide), hdone,
    hpaced.lasting (by decide) hdone⟩

end Drive

end BoundsCheck
