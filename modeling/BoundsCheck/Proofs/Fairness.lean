import Mathlib.Order.Bounds.Basic
import BoundsCheck.Proofs.Relaying

/-!
# Whose turn it is

An arbiter asks its inputs one after the other, so what counts for an input is how many others are
asked before it.  The winner is the ready input with the fewest of them.  In round-robin order the
cursor then moves behind the winner, and for whoever was ready and lost there are fewer left: an
input that stays ready wins before this number is used up, whatever the others do in the meantime.
With priorities the cursor never leaves the first input, so the number of an input is its own.

* `Arbiter.after`, `Arbiter.winners` — what becomes of an arbiter that is asked several times.
* `Arbiter.wait` — how many inputs are asked before this one.
* `Arbiter.winner?_eq_some` — the winner is the ready input with the shortest wait.
* `Arbiter.wait_advance_lt` — whoever loses has a shorter wait the next time.
* `Arbiter.Sound.mem_winners` — an input that stays ready wins in its turn.
* `Arbiter.nobody_starves` — the promises of an arbiter, whatever it was asked before.
-/

set_option autoImplicit false

namespace BoundsCheck

namespace Arbiter

/-! ## Arbiters in use -/

/-- What is done with an arbiter. -/
inductive Call
  /-- It is asked for a winner. -/
  | select (ready : Nat → Bool)
  /-- It is reset. -/
  | reset

/-- The arbiter after a call. -/
def call (a : Arbiter) : Call → Arbiter
  | .select ready => (a.select ready).2
  | .reset => a.reset

/-- The arbiter after several calls, one after the other. -/
def after (calls : List Call) (a : Arbiter) : Arbiter := calls.foldl call a

/-- The winners when an arbiter is asked several times, with other inputs ready each time. -/
def winners (a : Arbiter) : List (Nat → Bool) → List (Option Nat)
  | [] => []
  | ready :: rest => (a.select ready).1 :: (a.select ready).2.winners rest

/-- What an arbiter among so many inputs promises for the calls to come. -/
structure Fair (policy : ArbitrationPolicy) (inputs : Nat) (a : Arbiter) : Prop where
  /-- In round-robin order an input that stays ready wins once the cursor has come to it, -/
  in_turn : policy = .roundRobin → ∀ input < inputs, ∀ asked : List (Nat → Bool),
    (∀ ready ∈ asked, ready input = true) →
      (input + inputs - a.cursor) % inputs < asked.length →
        some input ∈ (a.winners asked).take ((input + inputs - a.cursor) % inputs + 1)
  /-- which takes no more calls than there are inputs. -/
  in_time : policy = .roundRobin → ∀ input < inputs, ∀ asked : List (Nat → Bool),
    (∀ ready ∈ asked, ready input = true) → inputs ≤ asked.length →
      some input ∈ (a.winners asked).take inputs
  /-- With priorities the first of the ready inputs wins. -/
  lowest : policy = .priority → ∀ ready winner, (a.select ready).1 = some winner ↔
    IsLeast {input | input < inputs ∧ ready input = true} winner
  /-- The winner is a ready input. -/
  ready : ∀ ready winner, (a.select ready).1 = some winner → winner < inputs ∧ ready winner = true
  /-- There is a winner as soon as an input is ready, -/
  none_iff : ∀ ready, (a.select ready).1 = none ↔ ∀ input < inputs, ready input = false
  /-- and without one nothing changes. -/
  unmoved : ∀ ready, (a.select ready).1 = none → (a.select ready).2 = a

/-! ## Waiting -/

/-- How many inputs are asked before this one. -/
def wait (a : Arbiter) (input : Nat) : Nat := (input + a.inputs - a.cursor) % a.inputs

variable {a : Arbiter} {ready : Nat → Bool} {input winner : Nat}

theorem wait_lt (hpos : 0 < a.inputs) (input : Nat) : a.wait input < a.inputs :=
  Nat.mod_lt _ hpos

/-- From the cursor on, the asking comes to the input at once or after the last one. -/
theorem cursor_add_wait (hcursor : a.cursor < a.inputs) (hinput : input < a.inputs) :
    a.cursor + a.wait input = input ∨ a.cursor + a.wait input = input + a.inputs := by
  rw [wait]
  by_cases hbehind : a.cursor ≤ input
  · left
    have hsum : input + a.inputs - a.cursor = input - a.cursor + a.inputs := by omega
    rw [hsum, Nat.add_mod_right, Nat.mod_eq_of_lt (by omega)]
    omega
  · right
    rw [Nat.mod_eq_of_lt (by omega)]
    omega

/-- An input has its place in the order of asking. -/
theorem getElem?_order_wait (hcursor : a.cursor < a.inputs) (hinput : input < a.inputs) :
    a.order[a.wait input]? = some input := by
  have hlt := wait_lt (Nat.zero_lt_of_lt hcursor) input
  rw [order, List.getElem?_map, List.getElem?_range hlt, Option.map_some]
  rcases cursor_add_wait hcursor hinput with heq | heq
  · rw [heq, Nat.mod_eq_of_lt hinput]
  · rw [heq, Nat.add_mod_right, Nat.mod_eq_of_lt hinput]

/-- What stands at a place is asked after as many others. -/
theorem wait_of_getElem?_order (hcursor : a.cursor < a.inputs) {place : Nat}
    (h : a.order[place]? = some input) : a.wait input = place := by
  obtain ⟨hplace, heq⟩ := List.getElem?_eq_some_iff.mp h
  rw [order, List.length_map, List.length_range] at hplace
  simp only [order, List.getElem_map, List.getElem_range] at heq
  have hinput : input < a.inputs := heq ▸ Nat.mod_lt _ (Nat.zero_lt_of_lt hcursor)
  have hlt := wait_lt (Nat.zero_lt_of_lt hcursor) input
  have hwait := cursor_add_wait hcursor hinput
  rcases Nat.lt_or_ge (a.cursor + place) a.inputs with hbefore | hturn
  · rw [Nat.mod_eq_of_lt hbefore] at heq
    omega
  · rw [Nat.mod_eq_sub_mod hturn, Nat.mod_eq_of_lt (by omega)] at heq
    omega

/-- **The winner is the ready input with the shortest wait.** -/
theorem winner?_eq_some (hcursor : a.cursor < a.inputs) (h : a.winner? ready = some winner) :
    winner < a.inputs ∧ ready winner = true ∧
      ∀ other < a.inputs, ready other = true → a.wait winner ≤ a.wait other := by
  have hmem := mem_order_iff.mp (List.mem_of_find?_eq_some h)
  obtain ⟨hready, place, hplace, heq, hbefore⟩ := List.find?_eq_some_iff_getElem.mp h
  refine ⟨hmem, hready, fun other hother hother' => ?_⟩
  have hget : a.order[place]? = some winner := List.getElem?_eq_some_iff.mpr ⟨hplace, heq⟩
  rw [wait_of_getElem?_order hcursor hget]
  by_contra hlt
  rw [Nat.not_le] at hlt
  obtain ⟨hplace', heq'⟩ := List.getElem?_eq_some_iff.mp (getElem?_order_wait hcursor hother)
  have hnot := hbefore (a.wait other) hlt
  rw [heq', hother'] at hnot
  exact Bool.false_ne_true hnot

theorem winner?_eq_none_iff :
    a.winner? ready = none ↔ ∀ input < a.inputs, ready input = false := by
  simp only [winner?, List.find?_eq_none, mem_order_iff, Bool.not_eq_true]

/-- Two inputs that have the same wait are the same. -/
theorem eq_of_wait_eq (hcursor : a.cursor < a.inputs) (hinput : input < a.inputs)
    (hwinner : winner < a.inputs) (h : a.wait input = a.wait winner) : input = winner := by
  have hget := getElem?_order_wait hcursor hinput
  rw [h, getElem?_order_wait hcursor hwinner] at hget
  exact (Option.some.inj hget).symm

/-- In round-robin order whoever loses has a shorter wait the next time. -/
theorem wait_advance_lt (hpolicy : a.policy = .roundRobin) (hcursor : a.cursor < a.inputs)
    (hinput : input < a.inputs) (hwinner : winner < a.inputs) (hne : input ≠ winner)
    (hle : a.wait winner ≤ a.wait input) : (a.advance winner).wait input < a.wait input := by
  have hlt : a.wait winner < a.wait input := by
    refine Nat.lt_of_le_of_ne hle fun heq => hne ?_
    exact eq_of_wait_eq hcursor hinput hwinner heq.symm
  have hinputs : (a.advance winner).inputs = a.inputs := by rw [advance, hpolicy]
  have hmoved : (a.advance winner).cursor = (winner + 1) % a.inputs := by rw [advance, hpolicy]
  have hmoved_lt : (a.advance winner).cursor < (a.advance winner).inputs := by
    rw [hinputs, hmoved]
    exact Nat.mod_lt _ (Nat.zero_lt_of_lt hcursor)
  have hafter := cursor_add_wait hmoved_lt (hinputs ▸ hinput)
  have hafter_lt := wait_lt (Nat.zero_lt_of_lt hmoved_lt) input
  rw [hinputs, hmoved] at hafter
  rw [hinputs] at hafter_lt
  have hbefore := cursor_add_wait hcursor hinput
  have hbefore_lt := wait_lt (Nat.zero_lt_of_lt hcursor) input
  have hwon := cursor_add_wait hcursor hwinner
  -- behind the last input the cursor comes back to the first
  rcases Nat.lt_or_ge (winner + 1) a.inputs with hnext | hlast
  · rw [Nat.mod_eq_of_lt hnext] at hafter
    omega
  · have hturn : winner + 1 = a.inputs := by omega
    rw [hturn, Nat.mod_self] at hafter
    omega

/-! ## What always holds -/

/-- What is kept of an arbiter whatever it is asked. -/
structure Sound (policy : ArbitrationPolicy) (inputs : Nat) (a : Arbiter) : Prop where
  policy_eq : a.policy = policy
  inputs_eq : a.inputs = inputs
  /-- The cursor stands at an input. -/
  cursor_lt : a.cursor < a.inputs
  /-- With priorities it is the first. -/
  cursor_eq : policy = .priority → a.cursor = 0

variable {policy : ArbitrationPolicy} {inputs : Nat}

theorem Sound.advance (h : a.Sound policy inputs) (winner : Nat) :
    (a.advance winner).Sound policy inputs := by
  have hpolicy := h.policy_eq
  cases policy with
  | priority =>
    rw [Arbiter.advance, hpolicy]
    exact h
  | roundRobin =>
    rw [Arbiter.advance, hpolicy]
    exact ⟨rfl, h.inputs_eq, Nat.mod_lt _ (Nat.zero_lt_of_lt h.cursor_lt),
      fun heq => by cases heq⟩

/-- Only the cursor moves, and only in round-robin order. -/
theorem Sound.advance_eq (h : a.Sound policy inputs) (winner : Nat) :
    a.advance winner = { a with
      cursor := if policy = .roundRobin then (winner + 1) % inputs else a.cursor } := by
  obtain ⟨order, count, cursor⟩ := a
  obtain rfl : order = policy := h.policy_eq
  obtain rfl : count = inputs := h.inputs_eq
  cases order with
  | priority => simp [Arbiter.advance]
  | roundRobin => simp [Arbiter.advance]

theorem Sound.select (h : a.Sound policy inputs) (ready : Nat → Bool) :
    (a.select ready).2.Sound policy inputs := by
  rw [Arbiter.select]
  split
  · exact h
  · exact h.advance _

theorem Sound.call (h : a.Sound policy inputs) (c : Call) : (a.call c).Sound policy inputs := by
  cases c with
  | select ready => exact h.select ready
  | reset =>
    exact ⟨h.policy_eq, h.inputs_eq, Nat.zero_lt_of_lt h.cursor_lt, fun _ => rfl⟩

theorem Sound.after (h : a.Sound policy inputs) (calls : List Call) :
    (a.after calls).Sound policy inputs := by
  induction calls generalizing a with
  | nil => exact h
  | cons c calls ih => exact ih (h.call c)

theorem select_fst (a : Arbiter) (ready : Nat → Bool) :
    (a.select ready).1 = a.winner? ready := by
  rw [select]
  split
  · rename_i heq
    exact heq.symm
  · rename_i heq
    exact heq.symm

/-- **An input that stays ready wins in its turn**, whatever the others do. -/
theorem Sound.mem_winners (h : a.Sound .roundRobin inputs) (hinput : input < a.inputs)
    {asked : List (Nat → Bool)} (hasked : ∀ ready ∈ asked, ready input = true)
    (hwait : a.wait input < asked.length) :
    some input ∈ (a.winners asked).take (a.wait input + 1) := by
  induction asked generalizing a with
  | nil => exact absurd hwait (Nat.not_lt_zero _)
  | cons ready rest ih =>
    have hready := hasked ready List.mem_cons_self
    obtain ⟨winner, hwinner⟩ : ∃ winner, a.winner? ready = some winner := by
      rw [← Option.ne_none_iff_exists', Ne, winner?_eq_none_iff]
      intro hnone
      exact Bool.false_ne_true ((hnone input hinput).symm.trans hready)
    obtain ⟨hlt, -, hshortest⟩ := winner?_eq_some h.cursor_lt hwinner
    have hselect : a.select ready = (some winner, a.advance winner) := by
      rw [Arbiter.select, hwinner]
    rw [winners, hselect, List.take_succ_cons, List.mem_cons]
    by_cases heq : input = winner
    · exact .inl (congrArg some heq)
    · right
      have hless := wait_advance_lt h.policy_eq h.cursor_lt hinput hlt heq
        (hshortest input hinput hready)
      have hinput' : input < (a.advance winner).inputs := by
        rw [(h.advance winner).inputs_eq, ← h.inputs_eq]
        exact hinput
      rw [List.length_cons] at hwait
      have hwon := ih (h.advance winner) hinput'
        (fun other hother => hasked other (List.mem_cons_of_mem _ hother)) (by omega)
      exact List.take_subset_take_left _ hless hwon

/-- With priorities the wait of an input is its number. -/
theorem wait_eq_self (hcursor : a.cursor = 0) (hinput : input < a.inputs) :
    a.wait input = input := by
  rw [wait, hcursor, Nat.sub_zero, Nat.add_mod_right, Nat.mod_eq_of_lt hinput]

theorem Sound.fair (h : a.Sound policy inputs) : a.Fair policy inputs where
  in_turn hpolicy input hinput asked hasked hwait := by
    subst hpolicy
    rw [← h.inputs_eq] at hinput hwait ⊢
    exact h.mem_winners hinput hasked hwait
  in_time hpolicy input hinput asked hasked hlength := by
    subst hpolicy
    rw [← h.inputs_eq] at hinput hlength ⊢
    have hwait := wait_lt (Nat.zero_lt_of_lt hinput) input
    have hwon := h.mem_winners hinput hasked (hwait.trans_le hlength)
    exact List.take_subset_take_left _ hwait hwon
  lowest hpolicy ready winner := by
    have hcursor := h.cursor_eq hpolicy
    rw [select_fst, ← h.inputs_eq]
    constructor
    · intro hwinner
      obtain ⟨hlt, hready, hshortest⟩ := winner?_eq_some h.cursor_lt hwinner
      refine ⟨⟨hlt, hready⟩, fun other hother => ?_⟩
      have hle := hshortest other hother.1 hother.2
      rwa [wait_eq_self hcursor hlt, wait_eq_self hcursor hother.1] at hle
    · rintro ⟨⟨hlt, hready⟩, hleast⟩
      rcases hwinner : a.winner? ready with _ | first
      · exact absurd ((winner?_eq_none_iff.mp hwinner winner hlt).symm.trans hready)
          Bool.false_ne_true
      · obtain ⟨hfirst, hready', hshortest⟩ := winner?_eq_some h.cursor_lt hwinner
        have hle := hshortest winner hlt hready
        rw [wait_eq_self hcursor hlt, wait_eq_self hcursor hfirst] at hle
        rw [Nat.le_antisymm hle (hleast ⟨hfirst, hready'⟩)]
  ready ready winner hwinner := by
    rw [select_fst] at hwinner
    rw [← h.inputs_eq]
    obtain ⟨hlt, hready, -⟩ := winner?_eq_some h.cursor_lt hwinner
    exact ⟨hlt, hready⟩
  none_iff ready := by
    rw [select_fst, ← h.inputs_eq]
    exact winner?_eq_none_iff
  unmoved ready hnone := by
    rw [select_fst] at hnone
    rw [Arbiter.select, hnone]

/-- **Nobody starves in round-robin order, and with priorities the first always wins.**  Whatever
was asked of an arbiter before, an input that stays ready from now on wins in its turn. -/
theorem nobody_starves (policy : ArbitrationPolicy) {inputs : Nat} (hpos : 0 < inputs)
    (calls : List Call) :
    ∃ a, new policy inputs = .ok a ∧ (a.after calls).Fair policy inputs := by
  refine ⟨ofInputs policy inputs, if_neg hpos.ne', ?_⟩
  have hsound : (ofInputs policy inputs).Sound policy inputs := ⟨rfl, rfl, hpos, fun _ => rfl⟩
  exact (hsound.after calls).fair

/-- Four inputs, of which the third has won, so that three are left before the second one wins.  It
does so in the last of these calls, although all others are ready as well. -/
theorem nobody_starves_of_four :
    0 < 4 ∧ ∃ a, new .roundRobin 4 = .ok a ∧
      (a.after [.reset, .select (2 ≤ ·), .select fun _ => false]).Fair .roundRobin 4 ∧
      (a.after [.reset, .select (2 ≤ ·), .select fun _ => false]).winners
        [fun _ => true, (· ≤ 1), fun _ => true] = [some 3, some 0, some 1] := by
  obtain ⟨a, hnew, hfair⟩ := nobody_starves .roundRobin (by decide : 0 < 4)
    [.reset, .select (2 ≤ ·), .select fun _ => false]
  refine ⟨by decide, a, hnew, hfair, ?_⟩
  cases hnew
  decide

end Arbiter

end BoundsCheck
