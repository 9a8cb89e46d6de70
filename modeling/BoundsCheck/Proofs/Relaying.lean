import Mathlib.Logic.Relation
import BoundsCheck.Proofs.Switching

/-!
# The moves of a switch

In a cycle a switch between several inputs makes at most two moves: it delivers a response to the
input that its tag names, and it passes a request of some input on.  `Switch.route` and
`Switch.grant` are each inverted here once, so that nothing further has to look into them: either
there is nothing to move, and then nothing changes, or there is, and it moves.

* `Arbiter.mem_order_iff` — an arbiter asks all inputs, whatever its cursor.
* `Switch.Move` — all that a switch between several inputs ever does.
* `Switch.route_cases`, `Switch.grant_cases` — what the two halves of a cycle do.
* `Switch.Shape.cycle_moves` — a cycle goes through and is made of moves.
-/

set_option autoImplicit false

namespace BoundsCheck

open Lookup TagPacking

/-- An arbiter asks all its inputs. -/
theorem Arbiter.mem_order_iff {a : Arbiter} {input : Nat} : input ∈ a.order ↔ input < a.inputs := by
  rw [order, List.mem_map]
  constructor
  · rintro ⟨i, hi, rfl⟩
    exact Nat.mod_lt _ (Nat.zero_lt_of_lt (List.mem_range.mp hi))
  · intro hlt
    have hcursor := Nat.mod_lt a.cursor (Nat.zero_lt_of_lt hlt)
    -- the input stands behind the cursor, or comes after a turn
    by_cases hbehind : a.cursor % a.inputs ≤ input
    · refine ⟨input - a.cursor % a.inputs, List.mem_range.mpr (by omega), ?_⟩
      have hsum : a.cursor % a.inputs + (input - a.cursor % a.inputs) = input := by omega
      rw [Nat.add_mod, Nat.mod_eq_of_lt (a := input - _) (by omega), hsum, Nat.mod_eq_of_lt hlt]
    · refine ⟨input + a.inputs - a.cursor % a.inputs, List.mem_range.mpr (by omega), ?_⟩
      have hsum : a.cursor % a.inputs + (input + a.inputs - a.cursor % a.inputs)
          = input + a.inputs := by omega
      rw [Nat.add_mod, Nat.mod_eq_of_lt (a := input + _ - _) (by omega), hsum, Nat.add_mod_right,
        Nat.mod_eq_of_lt hlt]

namespace Switch

/-! ## Moves -/

/-- A request of an input, as the switch passes it on. -/
def stamped (shift : Nat) (grant : Nat × Request) : Request :=
  { grant.2 with tag := stamp shift grant.1 grant.2.tag }

/-- The switch after a response was put on the link of its input. -/
def delivered (now : Nat) (link : Lookup.Link) (rsp : Response) (s : Switch) : Switch :=
  { s with
    inputs := s.inputs.set (inputOf s.shift rsp.tag)
      (link.respond { rsp with tag := unstamp s.shift rsp.tag } 1 now)
    stats := s.stats.respond (inputOf s.shift rsp.tag) 1 }

/-- The switch after a request of an input was passed on. -/
def granted (arbiter : Arbiter) (input : Nat) (link : Lookup.Link) (rest : Port Request)
    (s : Switch) : Switch :=
  { s with
    inputs := s.inputs.set input { link with requests := rest }
    mode := .arbitrated arbiter
    stats := s.stats.grant input 1 }

/-- All that a switch between several inputs ever does. -/
inductive Move (now : Nat) : Switch × Lookup.Link → Switch × Lookup.Link → Prop
  /-- A response goes to the input that its tag names. -/
  | deliver {s : Switch} {lower link : Lookup.Link} {packet : Packet Response} {rest : Port Response}
      (hpop : lower.responses.pop? now = some (packet, rest))
      (hlink : s.inputs[inputOf s.shift packet.item.tag]? = some link) :
      Move now (s, lower) (s.delivered now link packet.item, { lower with responses := rest })
  /-- A request goes to the server, stamped with its input. -/
  | forward {s : Switch} {lower link : Lookup.Link} {input : Nat} {packet : Packet Request}
      {rest : Port Request} {arbiter : Arbiter} (hlink : s.inputs[input]? = some link)
      (hpop : link.requests.pop? now = some (packet, rest))
      (hinputs : arbiter.inputs = s.inputs.length) :
      Move now (s, lower) (s.granted arbiter input link rest,
        lower.request (stamped s.shift (input, packet.item)) s.delay.toNat now)

variable {inputs now : Nat} {s : Switch} {lower : Lookup.Link} {arbiter : Arbiter}

theorem Shape.delivered (h : s.Shape inputs) (now : Nat) (link : Lookup.Link) (rsp : Response) :
    (s.delivered now link rsp).Shape inputs :=
  ⟨h.pos, h.le, List.length_set.trans h.links, h.shift, h.mode, h.grants,
    (List.length_modify _ _ _).trans h.responses⟩

theorem Shape.granted (h : s.Shape inputs) (harbiter : arbiter.inputs = inputs) (input : Nat)
    (link : Lookup.Link) (rest : Port Request) :
    (s.granted arbiter input link rest).Shape inputs :=
  ⟨h.pos, h.le, List.length_set.trans h.links, h.shift, .inr ⟨arbiter, rfl, harbiter⟩,
    (List.length_modify _ _ _).trans h.grants, h.responses⟩

/-! ## The two halves of a cycle -/

/-- All responses on the link below belong to some input. -/
def Deliverable (s : Switch) (lower : Lookup.Link) : Prop :=
  ∀ rsp ∈ lower.responses.items, inputOf s.shift rsp.tag < s.inputs.length

/-- All requests on the links of the inputs leave room for the number of their input. -/
def Stampable (s : Switch) : Prop :=
  ∀ link ∈ s.inputs, ∀ req ∈ link.requests.items, req.tag.toNat * 2 ^ s.shift < 2 ^ 32

theorem Shape.withLink (h : s.Shape inputs) (input : Nat) (link : Lookup.Link) :
    ({ s with inputs := s.inputs.set input link } : Switch).Shape inputs :=
  ⟨h.pos, h.le, List.length_set.trans h.links, h.shift, h.mode, h.grants, h.responses⟩

/-- Replacing one link by another whose requests leave room leaves room everywhere. -/
theorem Stampable.of_set (h : s.Stampable) {t : Switch} {input : Nat} {link : Lookup.Link}
    (hshift : t.shift = s.shift) (hset : t.inputs = s.inputs.set input link)
    (hlink : ∀ req ∈ link.requests.items, req.tag.toNat * 2 ^ s.shift < 2 ^ 32) : t.Stampable := by
  intro other hother
  rw [hset] at hother
  rw [hshift]
  rcases List.mem_or_eq_of_mem_set hother with hother | rfl
  · exact h other hother
  · exact hlink

/-- Either no response is visible, or the next one is delivered. -/
theorem route_cases (hlower : s.Deliverable lower) (now : Nat) :
    (lower.responses.pop? now = none ∧ s.route now lower = .ok (s, lower)) ∨
      ∃ packet rest link, lower.responses.pop? now = some (packet, rest) ∧
        s.inputs[inputOf s.shift packet.item.tag]? = some link ∧
        s.route now lower
          = .ok (s.delivered now link packet.item, { lower with responses := rest }) := by
  rcases hpop : lower.responses.pop? now with _ | ⟨packet, rest⟩
  · exact .inl ⟨rfl, by rw [route, hpop]⟩
  · have hlt : inputOf s.shift packet.item.tag < s.inputs.length := by
      refine hlower packet.item ?_
      rw [Port.items_of_pop? hpop]
      exact List.mem_cons_self
    have hlink := List.getElem?_eq_getElem hlt
    refine .inr ⟨packet, rest, _, rfl, hlink, ?_⟩
    simp only [route, hpop, deliver, hlink]
    rfl

/-- A switch finds a request visible exactly if it can be taken off the link of its input. -/
theorem requestVisible_iff {input : Nat} :
    s.requestVisible now input = true ↔
      ∃ link packet rest, s.inputs[input]? = some link ∧
        link.requests.pop? now = some (packet, rest) := by
  rw [requestVisible]
  rcases s.inputs[input]? with _ | link
  · simp
  · simp [Port.isEmpty_eq, Option.isSome_iff_exists]

/-- Either no input has a request visible, or a request of one of them is passed on. -/
theorem grant_cases (hshift : s.shift ≤ 32) (hfits : s.Stampable)
    (harbiter : arbiter.inputs = s.inputs.length) (now : Nat) (lower : Lookup.Link) :
    ((∀ link ∈ s.inputs, link.requests.pop? now = none) ∧
        s.grant now arbiter lower = .ok (s, lower)) ∨
      ∃ input link packet rest next, s.inputs[input]? = some link ∧
        link.requests.pop? now = some (packet, rest) ∧ next.inputs = s.inputs.length ∧
        s.grant now arbiter lower = .ok (s.granted next input link rest,
          lower.request (stamped s.shift (input, packet.item)) s.delay.toNat now) := by
  rcases hwinner : arbiter.winner? (s.requestVisible now) with _ | input
  · refine .inl ⟨fun link hlink => ?_, by rw [grant, Arbiter.select, hwinner]⟩
    obtain ⟨input, hinput⟩ := List.getElem?_of_mem hlink
    have hmem : input ∈ arbiter.order := by
      rw [Arbiter.mem_order_iff, harbiter]
      exact (List.getElem?_eq_some_iff.mp hinput).1
    have hhidden := List.find?_eq_none.mp hwinner input hmem
    rcases hpop : link.requests.pop? now with _ | ⟨packet, rest⟩
    · rfl
    · exact absurd (requestVisible_iff.mpr ⟨link, packet, rest, hinput, hpop⟩) hhidden
  · have hvisible : s.requestVisible now input = true := List.find?_some hwinner
    obtain ⟨link, packet, rest, hlink, hpop⟩ := requestVisible_iff.mp hvisible
    have hfit : overflows s.shift packet.item.tag = false := by
      rw [← Bool.not_eq_true, overflows_iff hshift, Nat.not_le]
      refine hfits link (List.mem_of_getElem? hlink) packet.item ?_
      rw [Port.items_of_pop? hpop]
      exact List.mem_cons_self
    refine .inr ⟨input, link, packet, rest, arbiter.advance input, hlink, hpop,
      (inputs_advance _ _).trans harbiter, ?_⟩
    simp only [grant, Arbiter.select, hwinner, forward, hlink, hpop, hfit, Bool.false_eq_true,
      if_false]
    rfl

/-- Once a response was delivered, a cycle goes on with a request. -/
theorem cycle_of_route (hmode : s.mode = .arbitrated arbiter) {first : Switch × Lookup.Link}
    (h : s.route now lower = .ok first) : s.cycle now lower = first.1.grant now arbiter first.2 := by
  rw [Switch.cycle, hmode]
  simp only [h]
  rfl

/-- **A cycle of a switch between several inputs goes through and is made of moves**, if all
responses belong to some input and all requests leave room for its number. -/
theorem Shape.cycle_moves (h : s.Shape inputs) (hmode : s.mode = .arbitrated arbiter)
    (hlower : s.Deliverable lower) (hfits : s.Stampable) (now : Nat) :
    (s.cycle now lower).error? = none ∧
      Relation.ReflTransGen (Move now) (s, lower) (s.cycle now lower).state := by
  have harbiter : arbiter.inputs = s.inputs.length :=
    (h.inputs_arbiter hmode).trans h.links.symm
  have hgrant : ∀ (t : Switch) (link : Lookup.Link), t.shift = s.shift →
      t.inputs.length = s.inputs.length → t.Stampable →
      (t.grant now arbiter link).error? = none ∧
        Relation.ReflGen (Move now) (t, link) (t.grant now arbiter link).state := by
    intro t link hshift hlength hstampable
    rcases grant_cases (by rw [hshift]; exact Nat.le_of_lt h.shift_lt) hstampable
      (harbiter.trans hlength.symm) now link with ⟨-, heq⟩ | ⟨_, _, _, _, _, hlink, hpop, hnext, heq⟩
    · rw [heq]
      exact ⟨rfl, .refl⟩
    · rw [heq]
      exact ⟨rfl, .single (.forward hlink hpop hnext)⟩
  rcases route_cases hlower now with ⟨-, heq⟩ | ⟨packet, rest, link, hpop, hlink, heq⟩
  · obtain ⟨herror, hmove⟩ := hgrant s lower rfl rfl hfits
    rw [cycle_of_route hmode heq]
    exact ⟨herror, hmove.to_reflTransGen⟩
  · obtain ⟨herror, hmove⟩ := hgrant (s.delivered now link packet.item)
      { lower with responses := rest } rfl List.length_set
      (hfits.of_set rfl rfl (hfits link (List.mem_of_getElem? hlink)))
    rw [cycle_of_route hmode heq]
    exact ⟨herror, .head (.deliver hpop hlink) hmove.to_reflTransGen⟩

end Switch

end BoundsCheck
