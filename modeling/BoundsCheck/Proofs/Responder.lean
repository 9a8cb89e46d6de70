import BoundsCheck.Proofs.Underway

/-!
# Responders

A responder stands for any server of lookups of which no more is known than that it answers each
lookup once.  It may take a lookup off its link at any time and answer any of those it has taken,
in whatever order.

* `Responder.fetch`, `Responder.answer` — all that a responder ever does.
* `Responder.outstanding` — the lookups whose answers have not been taken off its link.
* `Responder.forwarded` — all lookups that were ever put on its link.
-/

set_option autoImplicit false

namespace BoundsCheck

open Lookup

/-- A server that answers each lookup once.  Lists begin with what came first. -/
structure Responder where
  link : Lookup.Link := {}
  /-- The lookups that were taken off the link. -/
  fetched : List Request := []
  /-- Those that have not been answered. -/
  held : List Request := []
  /-- Those that have, each with its answer. -/
  answered : List (Request × Response) := []

namespace Responder

/-- Takes a lookup off the link, if one is visible. -/
def fetch (now : Nat) (r : Responder) : Responder :=
  match r.link.requests.pop? now with
  | none => r
  | some (packet, rest) =>
    { r with
      link := { r.link with requests := rest }
      fetched := r.fetched ++ [packet.item]
      held := r.held ++ [packet.item] }

/-- Answers one of the lookups held, if there are so many. -/
def answer (pick : Nat) (reply : Request → Response) (delay now : Nat) (r : Responder) :
    Responder :=
  match r.held[pick]? with
  | none => r
  | some req =>
    { r with
      link := r.link.respond (reply req) delay now
      held := r.held.eraseIdx pick
      answered := r.answered ++ [(req, reply req)] }

/-- The lookups on the link, as questions or as answers, and those held. -/
def outstanding (r : Responder) : Multiset Request := underway r.link + ↑r.held

/-- All lookups that were ever put on the link. -/
def forwarded (r : Responder) : List Request := r.fetched ++ r.link.requests.items

variable {r : Responder} {now : Nat}

/-- One of several is what is picked, together with what is left. -/
theorem coe_eraseIdx {α : Type} {l : List α} {pick : Nat} {a : α} (h : l[pick]? = some a) :
    (↑l : Multiset α) = {a} + ↑(l.eraseIdx pick) := by
  obtain ⟨hlt, rfl⟩ := List.getElem?_eq_some_iff.mp h
  rw [Multiset.singleton_add, Multiset.cons_coe, Multiset.coe_eq_coe]
  exact (List.getElem_cons_eraseIdx_perm hlt).symm

theorem outstanding_fetch (now : Nat) (r : Responder) :
    (r.fetch now).outstanding = r.outstanding := by
  rw [fetch]
  split
  · rfl
  · rename_i packet rest hpop
    rw [outstanding, outstanding, underway_of_pop?_requests hpop, ← Multiset.coe_add,
      Multiset.coe_singleton]
    abel

/-- A lookup stays outstanding when it is answered, if the answer repeats it. -/
theorem outstanding_answer {reply : Request → Response} (h : ∀ req, (reply req).question = req)
    (pick delay now : Nat) (r : Responder) :
    (r.answer pick reply delay now).outstanding = r.outstanding := by
  rw [answer]
  split
  · rfl
  · rename_i req hpick
    rw [outstanding, outstanding, underway_respond, h, coe_eraseIdx hpick]
    abel

@[simp] theorem forwarded_fetch (now : Nat) (r : Responder) :
    (r.fetch now).forwarded = r.forwarded := by
  rw [fetch]
  split
  · rfl
  · rename_i packet rest hpop
    rw [forwarded, forwarded, Port.items_of_pop? hpop, List.append_assoc]
    rfl

@[simp] theorem forwarded_answer (pick : Nat) (reply : Request → Response) (delay now : Nat)
    (r : Responder) : (r.answer pick reply delay now).forwarded = r.forwarded := by
  rw [answer]
  split <;> rfl

@[simp] theorem responses_fetch (now : Nat) (r : Responder) :
    (r.fetch now).link.responses = r.link.responses := by
  rw [fetch]
  split <;> rfl

@[simp] theorem answered_fetch (now : Nat) (r : Responder) :
    (r.fetch now).answered = r.answered := by
  rw [fetch]
  split <;> rfl

/-- What is known of all replies is known of the answers on the link. -/
theorem answers_answer {f : BufferId → RangeEntry} (h : Answers f r.link)
    {reply : Request → Response} (hreply : ∀ req, (reply req).entry = f (reply req).bufferId)
    (pick delay now : Nat) : Answers f (r.answer pick reply delay now).link := by
  rw [answer]
  split
  · exact h
  · exact h.respond (hreply _) delay now

end Responder

end BoundsCheck
