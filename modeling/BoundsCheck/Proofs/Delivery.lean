import Mathlib.Data.List.MinMax
import Mathlib.Logic.Function.Basic
import BoundsCheck.Proofs.Underway

/-!
# First in, first out

What is put on a port leaves it in the order it came, each item once and with the cycle it was sent
in, also when everything on one port is moved to the end of another one.  So much needs no more than
an account of what was put on each port and what was taken from it.

When an item leaves is another matter, for it waits behind all that came before it.  If whoever
takes items from a port does so in every cycle until there is none, then an item leaves in the cycle
in which it and all before it have become visible: the latest of the cycles from which on they are.
The proof follows the calls of a cycle.  What has left was due before the next cycle, what has not
is due in this one or later, and once the port has no more to give, in a later one.

* `Port.Call`, `Port.Pair` — what is done with two ports, and an account of each.
* `Port.Accounted` — the answers of a port are those that its account tells.
* `Port.due` — the cycle in which an item leaves a port that is emptied in every cycle.
* `Port.Pair.Emptied` — a port is filled in time, and emptied in every cycle.
* `Port.Pair.delivers_in_order` — the accounts of two ports, whatever is done with them, and the
  cycles in which the items of a port leave.
-/

set_option autoImplicit false

namespace BoundsCheck.Port

/-! ## Accounts -/

/-- Something that was put on a port: visible so many cycles after it was sent. -/
structure Shipment (α : Type) where
  item : α
  sent : Nat
  delay : Nat
deriving DecidableEq, Repr

/-- Something that was taken from a port. -/
structure Delivery (α : Type) where
  item : α
  sent : Nat
  /-- The cycle in which it was taken. -/
  taken : Nat
deriving DecidableEq, Repr

/-- The account of a port.  Lists begin with what came first. -/
structure Account (α : Type) where
  /-- What was put on the port, but for what was moved to another one. -/
  put : List (Shipment α) := []
  /-- What was taken from the port. -/
  taken : List (Delivery α) := []

variable {α : Type}

namespace Shipment

/-- The cycle from which on the item is visible, if nothing is before it. -/
def ready (s : Shipment α) : Nat := s.sent + s.delay

/-- The item as it stands on a port. -/
def packet (s : Shipment α) : Packet α := ⟨s.item, s.sent, s.ready⟩

end Shipment

namespace Account

/-- What was put on the port and not taken from it. -/
def waiting (a : Account α) : List (Shipment α) := a.put.drop a.taken.length

/-- The account after something was sent.  Nothing is sent without a delay. -/
def send (item : α) (delay now : Nat) (a : Account α) : Account α :=
  if delay = 0 then a else { a with put := a.put ++ [⟨item, now, delay⟩] }

/-- What has waited for longest, if it is visible. -/
def next? (now : Nat) (a : Account α) : Option (Shipment α) :=
  a.waiting.head?.filter (·.ready ≤ now)

end Account

/-! ## Two ports in use -/

/-- One of two ports. -/
inductive Side
  | left
  | right
deriving DecidableEq, Repr

/-- The other one. -/
def Side.other : Side → Side
  | .left => .right
  | .right => .left

/-- What is done with two ports. -/
inductive Call (α : Type)
  /-- Something is put on a port. -/
  | send (side : Side) (item : α) (delay now : Nat)
  /-- A port is asked for its first item. -/
  | front (side : Side) (now : Nat)
  /-- A port is asked whether nothing is visible. -/
  | isEmpty (side : Side) (now : Nat)
  /-- The first item is taken from a port, if it is visible. -/
  | pop (side : Side) (now : Nat)
  /-- A port is asked how much is under way on it. -/
  | length (side : Side)
  /-- Everything on a port is moved to the other one. -/
  | forward (side : Side)
deriving DecidableEq, Repr

/-- The call moves nothing, and if it concerns the port, then it names this cycle. -/
def Call.inTime (side : Side) (cycle : Nat) : Call α → Bool
  | .send target _ _ now => target != side || now == cycle
  | .pop source now => source != side || now == cycle
  | .forward _ => false
  | .front _ _ | .isEmpty _ _ | .length _ => true

/-- Two ports, and an account of each. -/
structure Pair (α : Type) where
  port : Side → Port α := fun _ => {}
  account : Side → Account α := fun _ => {}

namespace Pair

/-- One of the ports changes, and its account. -/
def change (side : Side) (port : Port α) (account : Account α) (p : Pair α) : Pair α where
  port := Function.update p.port side port
  account := Function.update p.account side account

/-- The ports after a call.  One that is refused leaves them as they are. -/
def step (p : Pair α) : Call α → Pair α
  | .send side item delay now =>
    let port := match (p.port side).send? item delay now with
      | .error _ => p.port side
      | .ok port => port
    p.change side port ((p.account side).send item delay now)
  | .pop side now =>
    match (p.port side).pop? now with
    | none => p
    | some (packet, rest) => p.change side rest
        { p.account side with
          taken := (p.account side).taken ++ [⟨packet.item, packet.sent, now⟩] }
  | .forward side =>
    let moved := (p.port side).moveInto (p.port side.other)
    let (source, target) := (p.account side, p.account side.other)
    (p.change side moved.1 { source with put := source.put.take source.taken.length }).change
      side.other moved.2 { target with put := target.put ++ source.waiting }
  | .front _ _ | .isEmpty _ _ | .length _ => p

/-- The ports after several calls. -/
def after (calls : List (Call α)) (p : Pair α) : Pair α := calls.foldl step p

/-- The ports after so many cycles, in each of which some calls are made. -/
def during (plan : Nat → List (Call α)) : Nat → Pair α
  | 0 => {}
  | cycle + 1 => (during plan cycle).after (plan cycle)

/-- Among these calls is one that finds nothing to take from the port in this cycle. -/
def runsDry (side : Side) (now : Nat) : List (Call α) → Pair α → Bool
  | [], _ => false
  | .pop source cycle :: calls, p =>
    (source == side && cycle == now && ((p.port side).pop? now).isNone)
      || runsDry side now calls (p.step (.pop source cycle))
  | call :: calls, p => runsDry side now calls (p.step call)

/-- So far a port was filled and emptied in every cycle. -/
structure Emptied (side : Side) (cycles : Nat) (plan : Nat → List (Call α)) : Prop where
  /-- Calls that concern the port name the cycle they are made in, and nothing is moved. -/
  inTime : ∀ cycle < cycles, ∀ call ∈ plan cycle, call.inTime side cycle = true
  /-- Things are taken from the port until there is nothing to take. -/
  dry : ∀ cycle < cycles, runsDry side cycle (plan cycle) (during plan cycle) = true

end Pair

/-- The answers of a port are those that its account tells. -/
structure Accounted (a : Account α) (p : Port α) : Prop where
  /-- What was taken is what was put on the port first, in the same order and each item once. -/
  taken : a.taken.map (fun d => (d.item, d.sent))
    = (a.put.take a.taken.length).map fun s => (s.item, s.sent)
  /-- All else is on the port. -/
  length : p.length = a.waiting.length
  hasPending : p.hasPending = !a.waiting.isEmpty
  /-- What has waited for longest is visible as soon as its delay is over. -/
  front : ∀ now, p.front? now = (a.next? now).map (·.item)
  isEmpty : ∀ now, p.isEmpty now = (a.next? now).isNone
  /-- It can be taken if it is visible, and only then. -/
  pop : ∀ now, (p.pop? now).map (fun taken => (taken.1.item, taken.1.sent))
    = (a.next? now).map fun s => (s.item, s.sent)

/-- The latest of the cycles from which on this item and those before it are visible. -/
def due (put : List (Shipment α)) (index : Nat) : Nat :=
  ((put.take (index + 1)).map (·.ready)).foldr max 0

/-! ## Ports and their accounts -/

/-- What was put on a port was taken from it or is on it, in the order it came. -/
structure Keeps (a : Account α) (p : Port α) : Prop where
  packets : p.packets = a.waiting.map (·.packet)
  taken : a.taken.map (fun d => (d.item, d.sent))
    = (a.put.take a.taken.length).map fun s => (s.item, s.sent)

variable {a b : Account α} {p q rest : Port α} {packet : Packet α} {now : Nat}

theorem keeps_default : Keeps ({} : Account α) {} := ⟨rfl, rfl⟩

theorem Keeps.le (h : Keeps a p) : a.taken.length ≤ a.put.length := by
  have hlength := congrArg List.length h.taken
  rw [List.length_map, List.length_map, List.length_take] at hlength
  omega

theorem Keeps.send (h : Keeps a p) (item : α) {delay : Nat} (hdelay : delay ≠ 0) (now : Nat) :
    Keeps (a.send item delay now) (p.send item delay now) := by
  rw [Account.send, if_neg hdelay]
  refine ⟨?_, ?_⟩
  · show p.packets ++ _ = ((a.put ++ [_]).drop a.taken.length).map _
    rw [List.drop_append_of_le_length h.le, List.map_append, h.packets]
    rfl
  · show _ = ((a.put ++ [_]).take a.taken.length).map _
    rw [List.take_append_of_le_length h.le]
    exact h.taken

/-- What is taken from a port is what has waited for longest. -/
theorem Keeps.pop (h : Keeps a p) (hpop : p.pop? now = some (packet, rest)) :
    ∃ s, a.put[a.taken.length]? = some s ∧ s.packet = packet ∧ s.ready ≤ now ∧
      Keeps { a with taken := a.taken ++ [⟨packet.item, packet.sent, now⟩] } rest := by
  obtain ⟨hpackets, hready⟩ := pop?_eq_some_iff.mp hpop
  rw [h.packets, List.map_eq_cons_iff] at hpackets
  obtain ⟨s, others, hwaiting, rfl, hothers⟩ := hpackets
  have hget : a.put[a.taken.length]? = some s := by
    rw [← List.head?_drop]
    exact congrArg List.head? hwaiting
  have hdrop : a.put.drop (a.taken.length + 1) = others := by
    rw [← List.tail_drop]
    exact congrArg List.tail hwaiting
  refine ⟨s, hget, rfl, hready, ?_, ?_⟩
  · show rest.packets = (a.put.drop (a.taken ++ [_]).length).map _
    rw [List.length_append, List.length_singleton, hdrop, hothers]
  · show (a.taken ++ [_]).map _ = (a.put.take (a.taken ++ [_]).length).map _
    rw [List.length_append, List.length_singleton, List.take_add_one, hget, List.map_append,
      List.map_append, h.taken]
    rfl

/-- What is moved to a port stands behind all that is on it, and nothing stays behind. -/
theorem Keeps.forward (h : Keeps a p) (hq : Keeps b q) :
    Keeps { a with put := a.put.take a.taken.length } (p.moveInto q).1 ∧
      Keeps { b with put := b.put ++ a.waiting } (p.moveInto q).2 := by
  refine ⟨⟨?_, ?_⟩, ⟨?_, ?_⟩⟩
  · show [] = ((a.put.take a.taken.length).drop a.taken.length).map _
    rw [List.drop_take, Nat.sub_self, List.take_zero, List.map_nil]
  · show _ = ((a.put.take a.taken.length).take a.taken.length).map _
    rw [List.take_take, Nat.min_self]
    exact h.taken
  · show q.packets ++ p.packets = ((b.put ++ a.waiting).drop b.taken.length).map _
    rw [List.drop_append_of_le_length hq.le, List.map_append, ← h.packets, hq.packets]
    rfl
  · show _ = ((b.put ++ a.waiting).take b.taken.length).map _
    rw [List.take_append_of_le_length hq.le]
    exact hq.taken

/-- What can be taken from a port can be told from its account. -/
theorem Keeps.pop?_eq (h : Keeps a p) (now : Nat) :
    p.pop? now = (a.next? now).map fun s => (s.packet, ⟨a.waiting.tail.map (·.packet)⟩) := by
  rw [pop?, h.packets, Account.next?]
  rcases a.waiting with _ | ⟨s, others⟩
  · rfl
  · rw [List.head?_cons, Option.filter_some]
    by_cases hready : s.ready ≤ now
    · simp [Shipment.packet, hready]
    · simp [Shipment.packet, hready]

theorem Keeps.accounted (h : Keeps a p) : Accounted a p := by
  refine ⟨h.taken, ?_, ?_, fun now => ?_, fun now => ?_, fun now => ?_⟩
  · rw [Port.length, h.packets, List.length_map]
  · rw [hasPending, h.packets, List.isEmpty_map]
  · rw [front?_eq, h.pop?_eq, Option.map_map]
    rfl
  · rw [isEmpty_eq, h.pop?_eq, Option.isNone_map]
  · rw [h.pop?_eq, Option.map_map]
    rfl

namespace Pair

variable {w : Pair α} {side : Side}

theorem change_self (side : Side) (p : Port α) (a : Account α) (w : Pair α) :
    (w.change side p a).port side = p ∧ (w.change side p a).account side = a :=
  ⟨Function.update_self .., Function.update_self ..⟩

/-- The other port and its account stay as they are. -/
theorem change_of_ne {other : Side} (hne : other ≠ side) (p : Port α) (a : Account α)
    (w : Pair α) : (w.change side p a).port other = w.port other ∧
      (w.change side p a).account other = w.account other :=
  ⟨Function.update_of_ne hne _ _, Function.update_of_ne hne _ _⟩

theorem keeps_change (h : ∀ side, Keeps (w.account side) (w.port side)) (hp : Keeps a p)
    (other : Side) :
    Keeps ((w.change side p a).account other) ((w.change side p a).port other) := by
  by_cases heq : other = side
  · subst heq
    obtain ⟨hport, haccount⟩ := change_self other p a w
    rwa [hport, haccount]
  · obtain ⟨hport, haccount⟩ := change_of_ne heq p a w
    rw [hport, haccount]
    exact h other

/-- **Every call keeps the accounts.** -/
theorem keeps_step (h : ∀ side, Keeps (w.account side) (w.port side)) (call : Call α)
    (side : Side) : Keeps ((w.step call).account side) ((w.step call).port side) := by
  cases call with
  | send target item delay now =>
    rw [step, send?]
    by_cases hdelay : delay = 0
    · rw [if_pos hdelay, Account.send, if_pos hdelay]
      exact keeps_change h (h target) side
    · rw [if_neg hdelay]
      exact keeps_change h ((h target).send item hdelay now) side
  | pop source now =>
    rw [step]
    split
    · exact h side
    · rename_i hpop
      obtain ⟨-, -, -, -, hkeeps⟩ := (h source).pop hpop
      exact keeps_change h hkeeps side
  | forward source =>
    obtain ⟨hsource, htarget⟩ := (h source).forward (h source.other)
    exact keeps_change (keeps_change h hsource) htarget side
  | front _ _ => exact h side
  | isEmpty _ _ => exact h side
  | length _ => exact h side

theorem keeps_after (h : ∀ side, Keeps (w.account side) (w.port side)) (calls : List (Call α))
    (side : Side) : Keeps ((w.after calls).account side) ((w.after calls).port side) := by
  induction calls generalizing w with
  | nil => exact h side
  | cons call calls ih => exact ih (keeps_step h call)

end Pair

/-! ## Cycles -/

variable {index other bound : Nat} {s : Shipment α} {put : List (Shipment α)}

theorem due_le_iff : due put index ≤ bound ↔ ∀ s ∈ put.take (index + 1), s.ready ≤ bound := by
  rw [due]
  induction put.take (index + 1) with
  | nil => simp
  | cons s others ih => simp [ih]

/-- What stands further behind is not due earlier. -/
theorem due_mono (h : index ≤ other) : due put index ≤ due put other := by
  refine due_le_iff.mpr fun s hs => due_le_iff.mp (Nat.le_refl (due put other)) s ?_
  exact List.take_subset_take_left put (Nat.add_le_add_right h 1) hs

theorem ready_le_due (h : put[index]? = some s) : s.ready ≤ due put index := by
  refine due_le_iff.mp (Nat.le_refl _) s ?_
  rw [List.take_add_one, h]
  exact List.mem_append_right _ (List.mem_singleton_self s)

/-- What comes later does not delay what is there. -/
theorem due_append (h : index < put.length) (more : List (Shipment α)) :
    due (put ++ more) index = due put index := by
  rw [due, List.take_append_of_le_length h, ← due]

/-- What was taken from a port was due before the cycle `last`, and was taken when it was.  What
was not is due in the cycle `first` or later. -/
structure Timed (first last : Nat) (a : Account α) : Prop where
  taken : ∀ (index : Nat) s, index < a.taken.length → a.put[index]? = some s →
    a.taken[index]? = some ⟨s.item, s.sent, due a.put index⟩ ∧ due a.put index < last
  waiting : ∀ index, a.taken.length ≤ index → index < a.put.length → first ≤ due a.put index

variable {first cycle : Nat}

/-- What is sent in this cycle becomes visible in a later one. -/
theorem Timed.send (h : Timed first (cycle + 1) a) (hle : a.taken.length ≤ a.put.length)
    (hfirst : first ≤ cycle + 1) (item : α) (delay : Nat) :
    Timed first (cycle + 1) (a.send item delay cycle) := by
  rw [Account.send]
  split_ifs with hdelay
  · exact h
  refine ⟨fun index s hindex hget => ?_, fun index hindex hlt => ?_⟩
  · have hlt : index < a.put.length := hindex.trans_le hle
    rw [due_append hlt]
    rw [List.getElem?_append_left hlt] at hget
    exact h.taken index s hindex hget
  · by_cases hlast : index < a.put.length
    · rw [due_append hlast]
      exact h.waiting index hindex hlast
    · have hget : (a.put ++ [⟨item, cycle, delay⟩])[index]? = some ⟨item, cycle, delay⟩ := by
        rw [List.length_append, List.length_singleton] at hlt
        obtain rfl : index = a.put.length := by omega
        exact List.getElem?_concat_length ..
      have hready := ready_le_due hget
      change cycle + delay ≤ due (a.put ++ _) index at hready
      show first ≤ due (a.put ++ _) index
      omega

/-- What is taken in this cycle has been due since this cycle. -/
theorem Timed.pop (h : Timed first (cycle + 1) a) (hfirst : cycle ≤ first)
    (hget : a.put[a.taken.length]? = some s) (hready : s.ready ≤ cycle) :
    Timed first (cycle + 1) { a with taken := a.taken ++ [⟨s.item, s.sent, cycle⟩] } := by
  have hlt : a.taken.length < a.put.length := (List.getElem?_eq_some_iff.mp hget).1
  have hdue : due a.put a.taken.length = cycle := by
    refine Nat.le_antisymm (due_le_iff.mpr fun other hother => ?_)
      (hfirst.trans (h.waiting _ (Nat.le_refl _) hlt))
    rw [List.take_add_one, hget, List.mem_append] at hother
    rcases hother with hother | hother
    · obtain ⟨index, hindex⟩ := List.getElem?_of_mem hother
      rw [List.getElem?_take] at hindex
      split_ifs at hindex with hbefore
      have hpast := (h.taken index other hbefore hindex).2
      have hle := ready_le_due hindex
      omega
    · cases List.mem_singleton.mp hother
      exact hready
  refine ⟨fun index other hindex hother => ?_, fun index hindex => h.waiting index ?_⟩
  · rw [List.length_append, List.length_singleton] at hindex
    by_cases hlast : index < a.taken.length
    · rw [List.getElem?_append_left hlast]
      exact h.taken index other hlast hother
    · obtain rfl : index = a.taken.length := by omega
      obtain rfl : s = other := Option.some.inj (hget.symm.trans hother)
      rw [List.getElem?_concat_length, hdue]
      exact ⟨rfl, Nat.lt_succ_self cycle⟩
  · rw [List.length_append] at hindex
    omega

/-- Once nothing is visible, all that waits is due in a later cycle. -/
theorem Timed.dry (h : Timed first (cycle + 1) a) (hkeeps : Keeps a p)
    (hpop : p.pop? cycle = none) : Timed (cycle + 1) (cycle + 1) a := by
  refine ⟨h.taken, fun index hindex hlt => ?_⟩
  have hfirst : a.taken.length < a.put.length := hindex.trans_lt hlt
  have hlate : cycle < a.put[a.taken.length].ready := by
    rw [hkeeps.pop?_eq, Option.map_eq_none_iff, Account.next?, Account.waiting, List.head?_drop,
      List.getElem?_eq_getElem hfirst] at hpop
    simpa using hpop
  have hready := ready_le_due (List.getElem?_eq_getElem hfirst)
  exact hlate.trans_le (hready.trans (due_mono hindex))

namespace Pair

variable {w : Pair α} {side : Side} {plan : Nat → List (Call α)} {cycles : Nat}

/-- **Every call of a cycle keeps the times**, as long as it is made in time. -/
theorem timed_step (hw : ∀ side, Keeps (w.account side) (w.port side))
    (h : Timed first (cycle + 1) (w.account side)) (hfirst : cycle ≤ first)
    (hlast : first ≤ cycle + 1) {call : Call α} (hcall : call.inTime side cycle = true) :
    Timed first (cycle + 1) ((w.step call).account side) := by
  cases call with
  | send target item delay now =>
    rw [step]
    by_cases htarget : target = side
    · subst htarget
      obtain rfl : now = cycle := by simpa [Call.inTime] using hcall
      rw [(change_self target _ _ w).2]
      exact h.send (hw target).le hlast item delay
    · rw [(change_of_ne (Ne.symm htarget) _ _ w).2]
      exact h
  | pop source now =>
    rw [step]
    split
    · exact h
    · rename_i packet rest hpop
      by_cases hsource : source = side
      · subst hsource
        obtain rfl : now = cycle := by simpa [Call.inTime] using hcall
        obtain ⟨s, hget, rfl, hready, -⟩ := (hw source).pop hpop
        rw [(change_self source _ _ w).2]
        exact h.pop hfirst hget hready
      · rw [(change_of_ne (Ne.symm hsource) _ _ w).2]
        exact h
  | forward _ => cases hcall
  | front _ _ => exact h
  | isEmpty _ _ => exact h
  | length _ => exact h

theorem timed_after (hw : ∀ side, Keeps (w.account side) (w.port side))
    (h : Timed first (cycle + 1) (w.account side)) (hfirst : cycle ≤ first)
    (hlast : first ≤ cycle + 1) {calls : List (Call α)}
    (hcalls : ∀ call ∈ calls, call.inTime side cycle = true) :
    Timed first (cycle + 1) ((w.after calls).account side) := by
  induction calls generalizing w with
  | nil => exact h
  | cons call calls ih =>
    rw [List.forall_mem_cons] at hcalls
    exact ih (keeps_step hw call) (timed_step hw h hfirst hlast hcalls.1) hcalls.2

/-- A call that finds nothing to take is as good as the end of the cycle. -/
theorem runsDry_cons {call : Call α} {calls : List (Call α)}
    (h : runsDry side cycle (call :: calls) w = true) :
    ((w.port side).pop? cycle = none ∧ w.step call = w) ∨
      runsDry side cycle calls (w.step call) = true := by
  cases call with
  | pop source now =>
    rw [runsDry, Bool.or_eq_true] at h
    refine h.imp_left fun hdry => ?_
    simp only [Bool.and_eq_true, beq_iff_eq, Option.isNone_iff_eq_none] at hdry
    obtain ⟨⟨rfl, rfl⟩, hpop⟩ := hdry
    exact ⟨hpop, by rw [step, hpop]⟩
  | _ => exact .inr h

/-- **Once the port runs dry, the cycle is over for it.** -/
theorem timed_of_runsDry (hw : ∀ side, Keeps (w.account side) (w.port side))
    (h : Timed cycle (cycle + 1) (w.account side)) {calls : List (Call α)}
    (hcalls : ∀ call ∈ calls, call.inTime side cycle = true)
    (hdry : runsDry side cycle calls w = true) :
    Timed (cycle + 1) (cycle + 1) ((w.after calls).account side) := by
  induction calls generalizing w with
  | nil => cases hdry
  | cons call calls ih =>
    rw [List.forall_mem_cons] at hcalls
    have hnext := keeps_step hw call
    rcases runsDry_cons hdry with ⟨hpop, hstep⟩ | hdry
    · refine timed_after hnext ?_ (Nat.le_succ cycle) (Nat.le_refl _) hcalls.2
      rw [hstep]
      exact h.dry (hw side) hpop
    · exact ih hnext (timed_step hw h (Nat.le_refl _) (Nat.le_succ cycle) hcalls.1) hcalls.2 hdry

theorem keeps_during (plan : Nat → List (Call α)) (cycles : Nat) (side : Side) :
    Keeps ((during plan cycles).account side) ((during plan cycles).port side) := by
  induction cycles generalizing side with
  | zero => exact keeps_default
  | succ cycle ih => exact keeps_after ih _ side

/-- **A port that is emptied in every cycle gives each item away when it is due.** -/
theorem timed_during (h : Emptied side cycles plan) :
    Timed cycles cycles ((during plan cycles).account side) := by
  induction cycles with
  | zero =>
    exact ⟨fun _ _ hindex => absurd hindex (Nat.not_lt_zero _),
      fun _ _ hindex => absurd hindex (Nat.not_lt_zero _)⟩
  | succ cycle ih =>
    have hbefore := ih ⟨fun earlier hlt => h.inTime earlier (Nat.lt_succ_of_lt hlt),
      fun earlier hlt => h.dry earlier (Nat.lt_succ_of_lt hlt)⟩
    have hcycle := Nat.lt_succ_self cycle
    refine timed_of_runsDry (keeps_during plan cycle) ⟨fun index s hindex hget => ?_,
      hbefore.waiting⟩ (h.inTime cycle hcycle) (h.dry cycle hcycle)
    obtain ⟨htaken, hdue⟩ := hbefore.taken index s hindex hget
    exact ⟨htaken, Nat.lt_succ_of_lt hdue⟩

/-- **First in, first out.**  Whatever is done with two ports, their accounts are right.  If things
are put on a port in every cycle, and taken from it until there is nothing to take, then each leaves
it in the cycle in which it and all before it have become visible. -/
theorem delivers_in_order :
    (∀ calls : List (Call α),
      (∀ side, Accounted ((({} : Pair α).after calls).account side)
        ((({} : Pair α).after calls).port side)) ∧
      ∀ source, (({} : Pair α).after (calls ++ [.forward source])).port source = {}) ∧
    ∀ (side : Side) (cycles : Nat) (plan : Nat → List (Call α)), Emptied side cycles plan →
      ∀ (index : Nat) s, ((during plan cycles).account side).put[index]? = some s →
        ((during plan cycles).account side).taken[index]?
          = if due ((during plan cycles).account side).put index < cycles
            then some ⟨s.item, s.sent, due ((during plan cycles).account side).put index⟩
            else none := by
  refine ⟨fun calls => ⟨fun side => (keeps_after (fun _ => keeps_default) calls side).accounted,
    fun source => ?_⟩, fun side cycles plan hplan index s hget => ?_⟩
  · have hne : source ≠ source.other := by cases source <;> decide
    rw [after, List.foldl_append, List.foldl_cons, List.foldl_nil, step,
      (change_of_ne hne _ _ _).1, (change_self source _ _ _).1]
    rfl
  · have htimed := timed_during hplan
    have hlt := (List.getElem?_eq_some_iff.mp hget).1
    by_cases hindex : index < ((during plan cycles).account side).taken.length
    · obtain ⟨htaken, hdue⟩ := htimed.taken index s hindex hget
      rw [htaken, if_pos hdue]
    · have hle := Nat.not_lt.mp hindex
      rw [List.getElem?_eq_none hle, if_neg (Nat.not_lt.mpr (htimed.waiting index hle hlt))]

/-- Three items, of which the first takes longest and holds up the others: one that was sent in the
same cycle, before an attempt to take something, and one that was sent in the next. -/
theorem delivers_in_order_behind_the_first :
    let plan : Nat → List (Call Nat)
      | 0 => [.send .left 10 3 0, .send .left 11 1 0, .pop .left 0]
      | 1 => [.pop .left 1, .send .left 12 1 1, .send .right 7 1 5]
      | cycle => [.pop .left cycle, .pop .left cycle, .pop .left cycle, .pop .left cycle]
    Emptied .left 4 plan ∧
      ((during plan 4).account .left).taken = [⟨10, 0, 3⟩, ⟨11, 0, 3⟩, ⟨12, 1, 3⟩] ∧
      ((during plan 4).account .left).taken[2]?
        = if due ((during plan 4).account .left).put 2 < 4
          then some ⟨12, 1, due ((during plan 4).account .left).put 2⟩ else none := by
  intro plan
  have hplan : Emptied .left 4 plan := ⟨by decide, by decide⟩
  exact ⟨hplan, by decide, delivers_in_order.2 .left 4 plan hplan 2 ⟨12, 1, 1⟩ (by decide)⟩

end Pair

end BoundsCheck.Port
