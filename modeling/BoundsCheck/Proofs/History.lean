import BoundsCheck.Proofs.Regular

/-!
# The history of a core

What can be said about a core of a machine in use often depends on what was given to it and taken
from it before.  To prove such a property it is enough to look at the core: at each of the calls
that concern it, and at a step of it, whatever the rest of the machine does meanwhile.

* `Core.History` — what was given to a core and taken from it.
* `Machine.Numbered` — the cores are numbered, so that it is known whose verdicts are handed over.
* `Drive.history` — the history of each core of a machine in use.
* `Drive.cores_keep` — what holds of a core and its history at all times.
-/

set_option autoImplicit false

namespace BoundsCheck

/-- What was given to a core and taken from it since the machine was last reset. -/
structure Core.History where
  pushed : List Trace := []
  completed : List Trace := []
  verdicts : List Verdict := []

/-- The history of a core of a machine in use. -/
def Drive.history (d : Drive) (i : Nat) : Core.History where
  pushed := d.pushed i
  completed := d.takenCompleted i
  verdicts := verdictsOf i d.takenVerdicts

/-! ## Results of a core -/

/-- What is listed for a single place of a list, if nothing is listed for the others. -/
theorem flatMap_eq_of_single {α β : Type} {l : List α} {f : α → List β} {i : Nat} {a : α}
    (h : l[i]? = some a) (hothers : ∀ j b, l[j]? = some b → j ≠ i → f b = []) :
    l.flatMap f = f a := by
  induction l generalizing i with
  | nil => cases h
  | cons first rest ih =>
    rw [List.flatMap_cons]
    cases i with
    | zero =>
      rw [List.getElem?_cons_zero, Option.some.injEq] at h
      have hrest : rest.flatMap f = [] := by
        rw [List.flatMap_eq_nil_iff]
        intro b hb
        obtain ⟨j, hj⟩ := List.getElem?_of_mem hb
        exact hothers (j + 1) b hj (Nat.succ_ne_zero j)
      rw [h, hrest, List.append_nil]
    | succ i =>
      rw [hothers 0 first rfl (Nat.succ_ne_zero i).symm, List.nil_append]
      exact ih h fun j b hj hne => hothers (j + 1) b hj fun heq => hne (Nat.succ.inj heq)

namespace Machine

variable {c : Config} {resolver : Resolver} {m : Machine} {i : Nat} {core : Core}

theorem completed_eq (h : m.cores[i]? = some core) : m.completed i = core.completed := by
  rw [completed, h]

/-- The cores of a machine are numbered. -/
structure Numbered (cores : Nat) (m : Machine) : Prop where
  /-- There is this number of them. -/
  length : m.cores.length = cores
  /-- There are no more of them than a switch has inputs. -/
  le : cores ≤ 32
  /-- Each core has its place as its number. -/
  id : ∀ i (core : Core), m.cores[i]? = some core → core.checker.id = UInt64.ofNat i

theorem Shaped.numbered (hs : m.Shaped c resolver) : m.Numbered c.cores.toNat :=
  ⟨hs.length, hs.switch.le, fun i core hcore => (hs.cores i core hcore).id⟩

/-- Verdicts are handed over with the number of the core they belong to. -/
theorem Numbered.verdictsOf_verdicts {n : Nat} (hn : m.Numbered n) (h : m.cores[i]? = some core) :
    Drive.verdictsOf i m.verdicts = core.checker.verdicts := by
  have hlt : ∀ {j other}, m.cores[j]? = some other → j < 2 ^ 64 := fun hother =>
    Nat.lt_of_lt_of_le (List.getElem?_eq_some_iff.mp hother).1
      (hn.length.trans_le (Nat.le_trans hn.le (by decide)))
  rw [Drive.verdictsOf, verdicts, List.filterMap_flatMap,
    flatMap_eq_of_single h fun j other hother hne => ?_]
  · rw [List.filterMap_map, hn.id i core h]
    simp
  · have hid : other.checker.id ≠ UInt64.ofNat i := by
      rw [hn.id j other hother]
      intro heq
      have hnat := congrArg UInt64.toNat heq
      rw [UInt64.toNat_ofNat_of_lt' (hlt hother), UInt64.toNat_ofNat_of_lt' (hlt h)] at hnat
      exact hne hnat
    rw [List.filterMap_map, List.filterMap_eq_nil_iff]
    intro v _
    simp [hid]

theorem Shaped.verdictsOf_verdicts (hs : m.Shaped c resolver) (h : m.cores[i]? = some core) :
    Drive.verdictsOf i m.verdicts = core.checker.verdicts :=
  hs.numbered.verdictsOf_verdicts h

end Machine

/-! ## Histories of drives -/

namespace Drive

theorem verdictsOf_append (i : Nat) (vs ws : List (UInt64 × Verdict)) :
    verdictsOf i (vs ++ ws) = verdictsOf i vs ++ verdictsOf i ws :=
  List.filterMap_append

theorem completed_eq {d : Drive} {i : Nat} {core : Core} (h : d.machine.cores[i]? = some core) :
    d.completed i = (d.history i).completed ++ core.completed := by
  rw [completed, Machine.completed_eq h]
  rfl

theorem verdicts_eq {c : Config} {resolver : Resolver} {d : Drive}
    (hs : d.machine.Shaped c resolver) {i : Nat} {core : Core}
    (h : d.machine.cores[i]? = some core) :
    d.verdicts i = (d.history i).verdicts ++ core.checker.verdicts := by
  rw [verdicts, verdictsOf_append, hs.verdictsOf_verdicts h]
  rfl

section Keep

variable {c : Config} {resolver : Resolver} {Q : Core.History → Core → Prop}

/-- A trace that is pushed changes the history of its core alone. -/
theorem push_keeps {d : Drive} (trace : Trace)
    (hgive : ∀ {history core}, Q history core →
      Q { history with pushed := history.pushed ++ [trace] } (core.give trace))
    (h : ∀ i core, d.machine.cores[i]? = some core → Q (d.history i) core) (i : Nat) (core' : Core)
    (hcore' : (d.step (.push trace)).machine.cores[i]? = some core') :
    Q ((d.step (.push trace)).history i) core' := by
  rw [machine_step] at hcore'
  change (d.machine.push trace).state.cores[i]? = some core' at hcore'
  obtain ⟨core, hcore, heq⟩ | ⟨-, heq⟩ := d.machine.push_cases trace
  · have haccepted : (d.step (.push trace)).accepted = d.accepted ++ [trace] := by
      show (if (d.machine.push trace).error?.isNone then _ else _) = _
      rw [heq]
      rfl
    have hpushed : (d.step (.push trace)).history i = { d.history i with
        pushed := (d.history i).pushed ++ [trace].filter (·.coreId.toNat = i) } := by
      rw [history, pushed, haccepted, List.filter_append]
      rfl
    rw [heq] at hcore'
    rw [hpushed]
    obtain ⟨rfl, -, rfl⟩ | ⟨hne, hcore'⟩ := getElem?_set_cases hcore'
    · rw [List.filter_cons_of_pos (by simp)]
      exact hgive (h _ core hcore)
    · rw [List.filter_cons_of_neg (by simpa using Ne.symm hne), List.filter_nil, List.append_nil]
      exact h i core' hcore'
  · have haccepted : (d.step (.push trace)).accepted = d.accepted := by
      show (if (d.machine.push trace).error?.isNone then _ else _) = _
      rw [heq]
      rfl
    have hhistory : (d.step (.push trace)).history i = d.history i := by
      rw [history, pushed, haccepted]
      rfl
    rw [heq] at hcore'
    rw [hhistory]
    exact h i core' hcore'

/-- **What is kept by all calls and steps that concern a core holds of it at all times.** -/
theorem cores_keep {m : Machine} (hnew : Machine.new c = .ok m)
    (hresolver : Resolver.ofConfig c = .ok resolver) (hfit : c.TagsFit)
    (hgive : ∀ {history core} (trace : Trace), Q history core →
      Q { history with pushed := history.pushed ++ [trace] } (core.give trace))
    (hstep : ∀ {history now core core'}, Q history core → core.Stepped c now core' →
      Q history core')
    (hcompleted : ∀ {history core}, Q history core →
      Q { history with completed := history.completed ++ core.completed }
        { core with completed := [] })
    (hverdicts : ∀ {history core}, Q history core →
      Q { history with verdicts := history.verdicts ++ core.checker.verdicts }
        { core with checker := core.checker.dropVerdicts })
    (hreset : ∀ core : Core, Q {} core.reset) (calls : List Call) (i : Nat) (core : Core)
    (hcore : ((start m).after calls).machine.cores[i]? = some core) :
    Q (((start m).after calls).history i) core := by
  obtain ⟨hc, other, hother, rfl⟩ := Machine.of_new hnew
  cases hresolver.symm.trans hother
  refine (after_keeps (P := fun d => d.machine.Regular c resolver ∧
    ∀ i core, d.machine.cores[i]? = some core → Q (d.history i) core) (fun d call h => ?_) calls
      ⟨Machine.regular_fresh hc hfit resolver, fun i core hcore => ?_⟩).2 i core hcore
  · refine ⟨by rw [machine_step]; exact h.1.call hc hfit call, fun i core' hcore' => ?_⟩
    cases call with
    | push trace => exact push_keeps trace (hgive trace) h.2 i core' hcore'
    | cycle =>
      exact h.1.cycle_cores (Q := fun i => Q (d.history i)) hc hfit hstep h.2 i core' hcore'
    | run limit =>
      exact h.1.run_cores (Q := fun i => Q (d.history i)) hc hfit hstep h.2 limit i core' hcore'
    | takeCompleted =>
      change (d.machine.cores.map _)[i]? = some core' at hcore'
      rw [List.getElem?_map, Option.map_eq_some_iff] at hcore'
      obtain ⟨core, hcore, rfl⟩ := hcore'
      have hkept := hcompleted (h.2 i core hcore)
      rw [← Machine.completed_eq hcore] at hkept
      exact hkept
    | takeVerdicts =>
      change (d.machine.cores.map _)[i]? = some core' at hcore'
      rw [List.getElem?_map, Option.map_eq_some_iff] at hcore'
      obtain ⟨core, hcore, rfl⟩ := hcore'
      have hkept := hverdicts (h.2 i core hcore)
      rw [← h.1.shaped.verdictsOf_verdicts hcore] at hkept
      change Q { d.history i with
        verdicts := verdictsOf i d.takenVerdicts ++ verdictsOf i d.machine.verdicts } _ at hkept
      rw [← verdictsOf_append] at hkept
      exact hkept
    | reset =>
      change (d.machine.cores.map _)[i]? = some core' at hcore'
      rw [List.getElem?_map, Option.map_eq_some_iff] at hcore'
      obtain ⟨core, -, rfl⟩ := hcore'
      exact hreset core
  · -- a core that has not been used is like one that was reset
    change (Machine.fresh c resolver).cores[i]? = some core at hcore
    rw [← Machine.reset_fresh] at hcore
    change ((Machine.fresh c resolver).cores.map _)[i]? = some core at hcore
    rw [List.getElem?_map, Option.map_eq_some_iff] at hcore
    obtain ⟨other, -, rfl⟩ := hcore
    exact hreset other

end Keep

end Drive

end BoundsCheck
