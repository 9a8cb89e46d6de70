import Mathlib.Data.Finset.Card
import BoundsCheck.Proofs.Misses

/-!
# One queue, kept by buffer

A table of pending misses is a queue that can be emptied one buffer at a time.  Which requests wait
in it can be told from the calls alone: a request waits from when it is added until its buffer is
taken or the table is cleared.  The table keeps no list of them in the order they came, only one for
each buffer, yet it never answers otherwise than such a list would.

What carries over from call to call is that no miss is left behind without a request, and that for
each buffer the table and the queue hold the same requests in the same order.  All answers follow
from these two; that a new request is merged exactly if its buffer has a miss needs the first.

* `MissTable.Call`, `MissTable.queued` — the requests that wait after some calls.
* `MissTable.Account` — a table in use, with what was added to it and what was taken from it.
* `MissTable.Groups` — the answers of a table are those of a queue.
* `MissTable.Account.Agrees` — for each buffer the table and the queue are the same.
* `MissTable.groups_in_arrival_order` — the answers of a table after any calls.
-/

set_option autoImplicit false

namespace BoundsCheck.MissTable

open Lookup (Request)

/-! ## Tables in use -/

/-- What is done with a table. -/
inductive Call
  /-- A request joins it. -/
  | add (req : Request)
  /-- The requests for a buffer are taken from it. -/
  | take (id : BufferId)
  /-- All requests are dropped. -/
  | clear
deriving DecidableEq, Repr

/-- The call takes or drops the request, if it waits. -/
def Call.removes (req : Request) : Call → Bool
  | .add _ => false
  | .take id => id == req.bufferId
  | .clear => true

/-- The requests that were added and neither taken nor dropped later, in the order they came. -/
def queued : List Call → List Request
  | [] => []
  | .add req :: later => if later.any (·.removes req) then queued later else req :: queued later
  | _ :: later => queued later

/-- The requests for one buffer. -/
def forBuffer (id : BufferId) (reqs : List Request) : List Request :=
  reqs.filter (·.bufferId = id)

/-- A table, and an account of it since it was cleared. -/
structure Account where
  table : MissTable := empty
  /-- What was added, in the order it came. -/
  added : List Request := []
  /-- What was taken, in the order it was returned. -/
  taken : List Request := []

namespace Account

/-- The table after a call. -/
def step (a : Account) : Call → Account
  | .add req => { a with table := a.table.add req, added := a.added ++ [req] }
  | .take id =>
    match a.table.take? id with
    | none => a
    | some (reqs, rest) => { a with table := rest, taken := a.taken ++ reqs }
  | .clear => { table := a.table.clear }

/-- A new table after several calls. -/
def after (calls : List Call) : Account := calls.foldl step {}

end Account

/-- What a table answers when these requests wait in it, and what became of all others. -/
structure Groups (queue : List Request) (a : Account) : Prop where
  /-- A buffer has a miss if a request for it waits. -/
  contains : ∀ id, a.table.contains id = true ↔ ∃ req ∈ queue, req.bufferId = id
  /-- At its miss wait the requests for it, in the order they came, -/
  get : ∀ id, a.table.get? id
    = if forBuffer id queue = [] then none else some ⟨id, forBuffer id queue⟩
  /-- and the miss says how many do. -/
  count : ∀ id, ((a.table.get? id).elim 0 fun miss => miss.waiting.length)
    = queue.countP (·.bufferId = id)
  /-- A new request is merged if another one for its buffer waits. -/
  add : ∀ req, a.table.merges req = true ↔ ∃ other ∈ queue, other.bufferId = req.bufferId
  /-- The requests for a buffer are taken in the order they came, if there are any, -/
  take : ∀ id, (a.table.take? id).map Prod.fst
    = if forBuffer id queue = [] then none else some (forBuffer id queue)
  /-- and only they are gone then. -/
  rest : ∀ id reqs rest, a.table.take? id = some (reqs, rest) →
    ∀ other, rest.get? other = if other = id then none else a.table.get? other
  /-- There are as many misses as buffers that are asked for, -/
  size : a.table.size = (queue.map (·.bufferId)).toFinset.card
  /-- and each request waits once. -/
  waitingCount : a.table.waitingCount = queue.length
  isEmpty : a.table.isEmpty = queue.isEmpty
  /-- Of what was added for a buffer, some was taken, in the order it came, and all else waits. -/
  accounted : ∀ id, forBuffer id a.added = forBuffer id a.taken ++ forBuffer id queue

/-! ## The queue after one more call -/

/-- What waits after a call, given what waited before it. -/
def Call.next (queue : List Request) : Call → List Request
  | .add req => queue ++ [req]
  | .take id => queue.filter (·.bufferId ≠ id)
  | .clear => []

theorem queued_concat (calls : List Call) (c : Call) :
    queued (calls ++ [c]) = c.next (queued calls) := by
  induction calls with
  | nil => cases c <;> rfl
  | cons first later ih =>
    cases first with
    | take id => exact ih
    | clear => exact ih
    | add req =>
      rw [List.cons_append, queued, queued, ih, List.any_append, List.any_cons, List.any_nil,
        Bool.or_false]
      rcases later.any (·.removes req) with _ | _
      -- the request still waits: the new call may be the one that removes it
      · cases c with
        | add other => rfl
        | clear => rfl
        | take id =>
          by_cases hid : req.bufferId = id
          · simp [Call.removes, Call.next, hid]
          · simp [Call.removes, Call.next, hid, Ne.symm hid]
      · rw [Bool.true_or, if_pos rfl, if_pos rfl]

/-! ## The requests for one buffer -/

variable {id other : BufferId} {queue reqs : List Request} {t rest : MissTable}

theorem forBuffer_append (id : BufferId) (before after : List Request) :
    forBuffer id (before ++ after) = forBuffer id before ++ forBuffer id after :=
  List.filter_append ..

theorem forBuffer_eq_self (h : ∀ req ∈ reqs, req.bufferId = id) : forBuffer id reqs = reqs :=
  List.filter_eq_self.mpr fun req hreq => decide_eq_true (h req hreq)

theorem forBuffer_eq_nil (h : ∀ req ∈ reqs, req.bufferId = id) (hne : other ≠ id) :
    forBuffer other reqs = [] :=
  List.filter_eq_nil_iff.mpr fun req hreq heq =>
    hne ((of_decide_eq_true heq).symm.trans (h req hreq))

theorem forBuffer_ne_nil_iff : forBuffer id queue ≠ [] ↔ ∃ req ∈ queue, req.bufferId = id := by
  simp [forBuffer]

/-- What waits for a buffer, without the requests for one buffer. -/
theorem forBuffer_without (id other : BufferId) (queue : List Request) :
    forBuffer other (queue.filter (·.bufferId ≠ id))
      = if other = id then [] else forBuffer other queue := by
  rw [forBuffer, List.filter_filter]
  split
  · rename_i heq
    simp [heq]
  · rename_i hne
    refine List.filter_congr fun req _ => ?_
    by_cases heq : req.bufferId = other
    · simp [heq, hne]
    · simp [heq]

/-- Nobody waits for a buffer without a miss. -/
theorem WellFormed.forBuffer_of_take?_eq_none (h : t.WellFormed) (htake : t.take? id = none) :
    forBuffer id t.inTurn = [] :=
  h.filter_inTurn_eq_nil (take?_eq_none_iff_notMem.mp htake)

/-- What is taken is all that waits for a buffer, and what waits for the others stays. -/
theorem WellFormed.forBuffer_of_take? (h : t.WellFormed) (htake : t.take? id = some (reqs, rest)) :
    forBuffer id t.inTurn = reqs ∧
      ∀ other, forBuffer other rest.inTurn
        = if other = id then [] else forBuffer other t.inTurn := by
  obtain ⟨-, hrest, hreqs, -⟩ := h.of_take? htake
  have hparts : ∀ other, forBuffer other t.inTurn
      = forBuffer other reqs ++ forBuffer other rest.inTurn := h.filter_inTurn_of_take? htake
  have hgone : forBuffer id rest.inTurn = [] :=
    hrest.filter_inTurn_eq_nil fun hmem => ((mem_ids_of_take? htake).mp hmem).2 rfl
  refine ⟨?_, fun other => ?_⟩
  · rw [hparts, hgone, List.append_nil, forBuffer_eq_self hreqs]
  · by_cases heq : other = id
    · rw [if_pos heq, heq, hgone]
    · rw [if_neg heq, hparts, forBuffer_eq_nil hreqs heq, List.nil_append]

/-! ## The table beside the queue -/

/-- The table holds the queue, and the account is right. -/
structure Account.Agrees (queue : List Request) (a : Account) : Prop where
  /-- No miss is left behind without a request. -/
  wellFormed : a.table.WellFormed
  /-- What waits for a buffer waits in the order of the queue. -/
  inTurn : ∀ id, forBuffer id a.table.inTurn = forBuffer id queue
  /-- What was added for a buffer was taken or waits. -/
  accounted : ∀ id, forBuffer id a.added = forBuffer id a.taken ++ forBuffer id queue

namespace Account.Agrees

variable {a : Account}

theorem new : Agrees [] {} := ⟨wellFormed_default, fun _ => rfl, fun _ => rfl⟩

theorem add (h : Agrees queue a) (req : Request) : Agrees (queue ++ [req]) (a.step (.add req)) where
  wellFormed := h.wellFormed.add req
  inTurn := fun id => by
    rw [forBuffer_append, ← h.inTurn]
    exact h.wellFormed.filter_inTurn_add req id
  accounted := fun id => by
    show forBuffer id (a.added ++ [req]) = forBuffer id a.taken ++ forBuffer id (queue ++ [req])
    rw [forBuffer_append, forBuffer_append, h.accounted, List.append_assoc]

theorem take (h : Agrees queue a) (id : BufferId) :
    Agrees (queue.filter (·.bufferId ≠ id)) (a.step (.take id)) := by
  rcases htake : a.table.take? id with _ | ⟨reqs, rest⟩
  -- nobody waits for the buffer, so that the queue stays as it is, too
  · have hnone := h.wellFormed.forBuffer_of_take?_eq_none htake
    rw [h.inTurn, forBuffer, List.filter_eq_nil_iff] at hnone
    have hqueue : queue.filter (·.bufferId ≠ id) = queue :=
      List.filter_eq_self.mpr fun req hreq => by simpa using hnone req hreq
    have hstep : a.step (.take id) = a := by rw [step, htake]
    rwa [hqueue, hstep]
  · obtain ⟨-, hrest, hreqs, -⟩ := h.wellFormed.of_take? htake
    obtain ⟨htaken, hothers⟩ := h.wellFormed.forBuffer_of_take? htake
    rw [h.inTurn] at htaken
    have hstep : a.step (.take id)
        = { a with table := rest, taken := a.taken ++ reqs } := by rw [step, htake]
    rw [hstep]
    refine ⟨hrest, fun other => ?_, fun other => ?_⟩
    · rw [hothers, forBuffer_without, h.inTurn]
    · rw [h.accounted, forBuffer_append, List.append_assoc, forBuffer_without]
      by_cases heq : other = id
      · rw [if_pos heq, heq, forBuffer_eq_self hreqs, htaken, List.append_nil]
      · rw [if_neg heq, forBuffer_eq_nil hreqs heq, List.nil_append]

/-- **Every call keeps the table beside the queue.** -/
theorem step (h : Agrees queue a) (c : Call) : Agrees (c.next queue) (a.step c) := by
  cases c with
  | add req => exact h.add req
  | take id => exact h.take id
  | clear => exact new

theorem after (calls : List Call) : Agrees (queued calls) (Account.after calls) := by
  induction calls using List.reverseRecOn with
  | nil => exact new
  | append_singleton calls c ih =>
    rw [queued_concat, Account.after, List.foldl_concat]
    exact ih.step c

/-! ## Answers -/

/-- The miss of a buffer has all that waits for it. -/
theorem get (h : Agrees queue a) (id : BufferId) :
    a.table.get? id = if forBuffer id queue = [] then none else some ⟨id, forBuffer id queue⟩ := by
  rcases hget : a.table.get? id with _ | miss
  · have htake : a.table.take? id = none := by rw [take?, hget]
    have hnone := h.wellFormed.forBuffer_of_take?_eq_none htake
    rw [h.inTurn] at hnone
    rw [if_pos hnone]
  · have htake : a.table.take? id
        = some (miss.waiting, ⟨a.table.misses.filter (·.bufferId != id)⟩) := by rw [take?, hget]
    have hwaiting := (h.wellFormed.forBuffer_of_take? htake).1
    rw [h.inTurn] at hwaiting
    have hid : miss.bufferId = id := by simpa using List.find?_some hget
    rw [hwaiting, if_neg (h.wellFormed.ne_nil miss (List.mem_of_find?_eq_some hget)), ← hid]

theorem contains (h : Agrees queue a) (id : BufferId) :
    a.table.contains id = true ↔ ∃ req ∈ queue, req.bufferId = id := by
  have hsome : a.table.contains id = (a.table.get? id).isSome := by
    rw [MissTable.contains, get?, List.isSome_find?]
  rw [← forBuffer_ne_nil_iff, hsome, h.get]
  split
  · rename_i hnil
    simp [hnil]
  · rename_i hne
    simp [hne]

theorem take_fst (h : Agrees queue a) (id : BufferId) :
    (a.table.take? id).map Prod.fst
      = if forBuffer id queue = [] then none else some (forBuffer id queue) := by
  have hget : (a.table.take? id).map Prod.fst = (a.table.get? id).map (·.waiting) := by
    rw [take?]
    cases a.table.get? id with
    | none => rfl
    | some miss => rfl
  rw [hget, h.get]
  split
  · rfl
  · rfl

/-- What is left after one buffer was taken are the misses of the others. -/
theorem get_rest (h : Agrees queue a) (htake : a.table.take? id = some (reqs, rest))
    (other : BufferId) : rest.get? other = if other = id then none else a.table.get? other := by
  -- what is left is the table after one more call, beside the queue after this call
  have hrest : (a.step (.take id)).table = rest := by rw [Account.step, htake]
  rw [← hrest, (h.take id).get, forBuffer_without, h.get]
  by_cases heq : other = id
  · rw [if_pos heq, if_pos heq, if_pos rfl]
  · rw [if_neg heq, if_neg heq]

/-- The table has the requests of the queue, each as often. -/
theorem perm (h : Agrees queue a) : a.table.inTurn.Perm queue := by
  refine List.perm_iff_count.mpr fun req => ?_
  have hcount : ∀ reqs : List Request,
      reqs.count req = (forBuffer req.bufferId reqs).count req := by
    intro reqs
    rw [forBuffer, List.count_filter]
    exact decide_eq_true rfl
  rw [hcount, hcount queue, h.inTurn]

theorem size (h : Agrees queue a) : a.table.size = (queue.map (·.bufferId)).toFinset.card := by
  have hids : (queue.map (·.bufferId)).toFinset = a.table.ids.toFinset := by
    ext id
    rw [List.mem_toFinset, List.mem_toFinset, ← contains_iff, h.contains, List.mem_map]
  rw [hids, List.toFinset_card_of_nodup h.wellFormed.nodup, ids, List.length_map, MissTable.size]

/-- The answers of the table are those of the queue. -/
theorem groups (h : Agrees queue a) : Groups queue a where
  contains := h.contains
  get := h.get
  count := fun id => by
    rw [h.get, List.countP_eq_length_filter]
    split
    · rename_i hnil
      exact (congrArg List.length hnil).symm
    · rfl
  add := fun req => by rw [h.wellFormed.merges_eq, h.contains]
  take := h.take_fst
  rest := fun id reqs rest => h.get_rest
  size := h.size
  waitingCount := h.perm.length_eq
  isEmpty := by
    rw [Bool.eq_iff_iff, isEmpty, List.isEmpty_iff, List.isEmpty_iff, ← List.length_eq_zero_iff]
    show a.table.size = 0 ↔ queue = []
    rw [h.size, Finset.card_eq_zero, List.toFinset_eq_empty_iff, List.map_eq_nil_iff]
  accounted := h.accounted

end Account.Agrees

/-! ## The table and the queue -/

/-- A table of pending misses is a queue that is kept by buffer: whatever was added, taken and
cleared so far, its answers are those of the requests that still wait, in the order they came. -/
theorem groups_in_arrival_order (calls : List Call) :
    Groups (queued calls) (Account.after calls) :=
  (Account.Agrees.after calls).groups

/-- A request that comes after its buffer was taken waits at a new miss. -/
example :
    let request (id : BufferId) (tag : Tag) : Request := ⟨0x100, id, tag, 0⟩
    let calls : List Call := [.add (request 1 0), .add (request 2 1), .add (request 1 2), .take 1,
      .add (request 1 3)]
    queued calls = [request 2 1, request 1 3] ∧
      (Account.after calls).taken = [request 1 0, request 1 2] ∧
      (Account.after calls).table.misses = [⟨2, [request 2 1]⟩, ⟨1, [request 1 3]⟩] := by
  decide

end BoundsCheck.MissTable
