import Mathlib.Logic.Function.Basic
import BoundsCheck.Proofs.Build
import BoundsCheck.Proofs.Relaying
import BoundsCheck.Proofs.Responder

/-!
# Every response returns to its requester

Several inputs of a switch may use the same tags at the same time, and the server below may answer
in any order, so nothing but the stamp on a tag tells whose a response is.  It is enough: above any
server that answers each request once and repeats its tag, the requests of an input are passed on
one by one in the order they came, and every response goes to the input whose request it answers,
with the tag that the request had.

The proof keeps a record of what was passed on and what came back.  The stamps themselves are only
looked at where a response is delivered (`Bench.Regular.exists_grant`); everything else is about
which request a response belongs to.

* `Switch.Event`, `Switch.Bench` — what happens to a switch and around it.
* `Switch.Record` — the requests passed on, and the responses that came back for them.
* `Switch.Bench.Accounted` — the accounts of a switch, given such a record.
* `Switch.Bench.returned_to_requester` — there is one after any events.
-/

set_option autoImplicit false

namespace BoundsCheck

open Lookup TagPacking

namespace Switch

/-! ## A switch and its surroundings -/

/-- What happens to a switch or to the server below it. -/
inductive Event
  /-- A request is sent to an input. -/
  | ask (input : Nat) (req : Request) (delay now : Nat)
  /-- A response is taken from an input, if one is visible. -/
  | collect (input now : Nat)
  /-- The switch works. -/
  | cycle (now : Nat)
  /-- The server takes a request in, if one is visible. -/
  | fetch (now : Nat)
  /-- The server answers one of the requests that it has taken in.  All but the tag of its answer is
  of its own choice. -/
  | answer (pick : Nat) (rsp : Response) (delay now : Nat)
deriving DecidableEq, Repr

/-- The tag of a request leaves room for the numbers of all inputs. -/
def Event.fits (inputs : Nat) : Event → Bool
  | .ask _ req _ _ => req.tag.toNat < 2 ^ (32 - tagShift inputs)
  | _ => true

/-- A switch above a responder, with what was sent to its inputs and taken from them.  Lists begin
with what came first. -/
structure Bench where
  switch : Switch
  server : Responder := {}
  /-- The requests that were sent to each input. -/
  asked : Nat → List Request := fun _ => []
  /-- The responses that were taken from each input. -/
  collected : Nat → List Response := fun _ => []

/-- What a switch has done: which requests it has passed on, and what came back for them. -/
structure Record where
  /-- The requests passed on, each with the number of its input. -/
  grants : List (Nat × Request) := []
  /-- The responses delivered, each with the request that it answers. -/
  returns : List ((Nat × Request) × Response) := []
  /-- The requests whose responses have not been delivered. -/
  outstanding : Multiset (Nat × Request) := 0
  /-- The answers of the server that have not been delivered. -/
  due : List (Request × Response) := []

/-- The requests of an input among those passed on. -/
def grantsOf (input : Nat) (grants : List (Nat × Request)) : List Request :=
  (grants.filter (·.1 = input)).map (·.2)

/-- The responses to an input among those delivered, each with the tag that the request had. -/
def returnsTo (input : Nat) (returns : List ((Nat × Request) × Response)) : List Response :=
  (returns.filter (·.1.1 = input)).map fun r => { r.2 with tag := r.1.2.tag }

theorem grantsOf_append_self (grants : List (Nat × Request)) (input : Nat) (req : Request) :
    grantsOf input (grants ++ [(input, req)]) = grantsOf input grants ++ [req] := by
  simp [grantsOf]

theorem grantsOf_append_of_ne {input other : Nat} (h : other ≠ input)
    (grants : List (Nat × Request)) (req : Request) :
    grantsOf input (grants ++ [(other, req)]) = grantsOf input grants := by
  simp [grantsOf, h]

theorem returnsTo_append_self (returns : List ((Nat × Request) × Response)) (grant : Nat × Request)
    (rsp : Response) :
    returnsTo grant.1 (returns ++ [(grant, rsp)])
      = returnsTo grant.1 returns ++ [{ rsp with tag := grant.2.tag }] := by
  simp [returnsTo]

theorem returnsTo_append_of_ne {grant : Nat × Request} {input : Nat} (h : grant.1 ≠ input)
    (returns : List ((Nat × Request) × Response)) (rsp : Response) :
    returnsTo input (returns ++ [(grant, rsp)]) = returnsTo input returns := by
  simp [returnsTo, h]

namespace Bench

/-- The bench after an event. -/
def step (b : Bench) : Event → Bench
  | .ask input req delay now =>
    match b.switch.inputs[input]? with
    | none => b
    | some link =>
      { b with
        switch.inputs := b.switch.inputs.set input (link.request req delay now)
        asked := Function.update b.asked input (b.asked input ++ [req]) }
  | .collect input now =>
    match b.switch.inputs[input]? with
    | none => b
    | some link =>
      match link.responses.pop? now with
      | none => b
      | some (packet, rest) =>
        { b with
          switch.inputs := b.switch.inputs.set input { link with responses := rest }
          collected := Function.update b.collected input (b.collected input ++ [packet.item]) }
  | .cycle now =>
    { b with
      switch := (b.switch.cycle now b.server.link).state.1
      server.link := (b.switch.cycle now b.server.link).state.2 }
  | .fetch now => { b with server := b.server.fetch now }
  | .answer pick rsp delay now =>
    { b with server := b.server.answer pick (fun req => { rsp with tag := req.tag }) delay now }

/-- The bench after several events. -/
def after (events : List Event) (b : Bench) : Bench := events.foldl step b

/-- The accounts of one input of a switch. -/
structure InputAccounted (record : Record) (b : Bench) (i : Nat) (link : Lookup.Link) : Prop where
  /-- The requests passed on are the first that were sent, in their order, and the others wait. -/
  asked : b.asked i = grantsOf i record.grants ++ link.requests.items
  /-- The responses that were or can be taken are those to the requests of this input. -/
  collected : b.collected i ++ link.responses.items = returnsTo i record.returns
  /-- The requests passed on are counted. -/
  grants : b.switch.stats.grants[i]? = some (grantsOf i record.grants).length
  /-- The responses delivered are counted. -/
  responses : b.switch.stats.responses[i]? = some (returnsTo i record.returns).length

/-- The accounts of a switch with some inputs. -/
structure Accounted (inputs : Nat) (record : Record) (b : Bench) : Prop where
  /-- No cycle is cut short. -/
  sound : ∀ now, (b.switch.cycle now b.server.link).error? = none
  /-- The requests passed on are unchanged except for the tag. -/
  forwarded : b.server.forwarded = record.grants.map (stamped b.switch.shift)
  /-- They come from the inputs. -/
  sources : ∀ grant ∈ record.grants, grant.1 < inputs
  /-- The accounts of each input are right. -/
  inputs : ∀ i < inputs, ∃ link, b.switch.inputs[i]? = some link ∧ b.InputAccounted record i link
  /-- Each request was answered by one response that was delivered, or is outstanding. -/
  once : (↑record.grants : Multiset (Nat × Request))
    = ↑(record.returns.map (·.1)) + record.outstanding
  /-- The outstanding requests are those on their way down, with the server, or on their way up. -/
  outstanding : record.outstanding.map (stamped b.switch.shift)
    = ↑b.server.link.requests.items + ↑b.server.held + ↑(record.due.map (·.1))
  /-- The responses delivered are those that the server gave to these requests, in their order; the
  others are on their way up. -/
  answered : b.server.answered
    = record.returns.map (fun r => (stamped b.switch.shift r.1, r.2)) ++ record.due
  due : record.due.map (·.2) = b.server.link.responses.items
  /-- Outstanding requests of different inputs have different tags. -/
  tags : ∀ grant ∈ record.outstanding, ∀ other ∈ record.outstanding, grant.1 ≠ other.1 →
    (stamped b.switch.shift grant).tag ≠ (stamped b.switch.shift other).tag

/-- What always holds of a switch above a responder. -/
structure Regular (inputs : Nat) (record : Record) (b : Bench) : Prop where
  shape : b.switch.Shape inputs
  arbitrated : ∃ arbiter, b.switch.mode = .arbitrated arbiter
  stampable : b.switch.Stampable
  /-- All requests passed on come from an input and had a tag that leaves room for its number. -/
  granted : ∀ grant ∈ record.grants,
    grant.1 < inputs ∧ grant.2.tag.toNat * 2 ^ b.switch.shift < 2 ^ 32
  /-- The server repeats tags. -/
  echoes : ∀ answer ∈ record.due, answer.2.tag = answer.1.tag
  inputs : ∀ i link, b.switch.inputs[i]? = some link → b.InputAccounted record i link
  forwarded : b.server.forwarded = record.grants.map (stamped b.switch.shift)
  once : (↑record.grants : Multiset (Nat × Request))
    = ↑(record.returns.map (·.1)) + record.outstanding
  outstanding : record.outstanding.map (stamped b.switch.shift)
    = ↑b.server.link.requests.items + ↑b.server.held + ↑(record.due.map (·.1))
  answered : b.server.answered
    = record.returns.map (fun r => (stamped b.switch.shift r.1, r.2)) ++ record.due
  due : record.due.map (·.2) = b.server.link.responses.items

variable {inputs : Nat} {record : Record} {b : Bench}

/-! ## Responses and the requests they answer -/

theorem Regular.mem_grants (h : b.Regular inputs record) {grant : Nat × Request}
    (hgrant : grant ∈ record.outstanding) : grant ∈ record.grants := by
  rw [← Multiset.mem_coe, h.once]
  exact Multiset.mem_add.mpr (.inr hgrant)

/-- The tag of a stamped request tells its input and the tag it had. -/
theorem Regular.stamped_tag (h : b.Regular inputs record) {grant : Nat × Request}
    (hgrant : grant ∈ record.grants) :
    inputOf b.switch.shift (stamped b.switch.shift grant).tag = grant.1 ∧
      unstamp b.switch.shift (stamped b.switch.shift grant).tag = grant.2.tag := by
  obtain ⟨hlt, hfit⟩ := h.granted grant hgrant
  have hinput := h.shape.lt_two_pow_shift hlt
  exact ⟨inputOf_stamp h.shape.shift_lt hinput hfit, unstamp_stamp h.shape.shift_lt hinput hfit⟩

/-- The response that is due for a request bears its stamp. -/
theorem Regular.exists_grant (h : b.Regular inputs record) {answer : Request × Response}
    (hanswer : answer ∈ record.due) :
    ∃ grant ∈ record.outstanding, stamped b.switch.shift grant = answer.1 ∧
      inputOf b.switch.shift answer.2.tag = grant.1 ∧
      unstamp b.switch.shift answer.2.tag = grant.2.tag := by
  have hmem : answer.1 ∈ record.outstanding.map (stamped b.switch.shift) := by
    rw [h.outstanding]
    exact Multiset.mem_add.mpr (.inr (Multiset.mem_coe.mpr (List.mem_map_of_mem hanswer)))
  obtain ⟨grant, hgrant, hstamped⟩ := Multiset.mem_map.mp hmem
  obtain ⟨hinput, htag⟩ := h.stamped_tag (h.mem_grants hgrant)
  rw [hstamped, ← h.echoes answer hanswer] at hinput htag
  exact ⟨grant, hgrant, hstamped, hinput, htag⟩

theorem Regular.deliverable (h : b.Regular inputs record) :
    b.switch.Deliverable b.server.link := by
  intro rsp hrsp
  rw [← h.due] at hrsp
  obtain ⟨answer, hanswer, rfl⟩ := List.mem_map.mp hrsp
  obtain ⟨grant, hgrant, -, hinput, -⟩ := h.exists_grant hanswer
  rw [hinput, h.shape.links]
  exact (h.granted grant (h.mem_grants hgrant)).1

/-! ## Moves of the switch -/

/-- The bench after the switch has worked above the server. -/
def moved (next : Switch × Lookup.Link) (b : Bench) : Bench :=
  { b with switch := next.1, server.link := next.2 }

/-- The response that is delivered is the next one that is due. -/
theorem Regular.deliver (h : b.Regular inputs record) {now : Nat} {link : Lookup.Link}
    {packet : Packet Response} {rest : Port Response}
    (hpop : b.server.link.responses.pop? now = some (packet, rest))
    (hlink : b.switch.inputs[inputOf b.switch.shift packet.item.tag]? = some link) :
    ∃ record', (b.moved (b.switch.delivered now link packet.item,
      { b.server.link with responses := rest })).Regular inputs record' := by
  have hdue := h.due
  rw [Port.items_of_pop? hpop, List.map_eq_cons_iff] at hdue
  obtain ⟨answer, due, hcons, hitem, hrest⟩ := hdue
  have hfirst : answer ∈ record.due := by
    rw [hcons]
    exact List.mem_cons_self
  obtain ⟨grant, hgrant, hstamped, hinput, htag⟩ := h.exists_grant hfirst
  obtain ⟨others, hothers⟩ := Multiset.exists_cons_of_mem hgrant
  rw [hitem] at hinput htag
  refine ⟨{ record with
    returns := record.returns ++ [(grant, packet.item)]
    outstanding := others
    due := due }, ?_⟩
  refine ⟨h.shape.delivered now link packet.item, h.arbitrated,
    h.stampable.of_set rfl rfl (h.stampable link (List.mem_of_getElem? hlink)), h.granted,
    fun other hother => h.echoes other ?_, fun i link' hlink' => ?_, h.forwarded, ?_, ?_, ?_,
    hrest⟩
  · rw [hcons]
    exact List.mem_cons_of_mem _ hother
  · change (b.switch.inputs.set (inputOf b.switch.shift packet.item.tag)
      (link.respond { packet.item with tag := unstamp b.switch.shift packet.item.tag } 1 now))[i]?
        = some link' at hlink'
    have hstats : (b.switch.delivered now link packet.item).stats.responses
        = b.switch.stats.responses.modify grant.1 (· + 1) := by
      rw [← hinput]
      rfl
    rw [hinput] at hlink hlink'
    rw [htag] at hlink'
    obtain ⟨rfl, -, rfl⟩ | ⟨hne, hlink'⟩ := getElem?_set_cases hlink'
    · have hold := h.inputs _ link hlink
      refine ⟨hold.asked, ?_, hold.grants, ?_⟩
      · show b.collected grant.1 ++ (link.responses.send _ 1 now).items = _
        rw [Port.items_send, ← List.append_assoc, hold.collected, returnsTo_append_self]
      · show (b.switch.delivered now link packet.item).stats.responses[grant.1]? = _
        rw [hstats, List.getElem?_modify_eq, hold.responses, returnsTo_append_self,
          List.length_append]
        rfl
    · have hold := h.inputs i link' hlink'
      refine ⟨hold.asked, ?_, hold.grants, ?_⟩
      · rw [returnsTo_append_of_ne (Ne.symm hne)]
        exact hold.collected
      · show (b.switch.delivered now link packet.item).stats.responses[i]? = _
        rw [hstats, List.getElem?_modify_ne _ _ (Ne.symm hne), hold.responses,
          returnsTo_append_of_ne (Ne.symm hne)]
  · rw [h.once, hothers, List.map_append, ← Multiset.coe_add, ← Multiset.singleton_add, add_assoc]
    rfl
  · have hout := h.outstanding
    rw [hothers, hcons, Multiset.map_cons, List.map_cons, ← Multiset.cons_coe, hstamped,
      Multiset.add_cons, Multiset.cons_inj_right] at hout
    exact hout
  · have hpair : answer = (stamped b.switch.shift grant, packet.item) := by
      rw [hstamped, ← hitem]
    show b.server.answered = _
    rw [h.answered, hcons, hpair, List.map_append, List.append_assoc]
    rfl

/-- The request that is passed on is the next one of its input. -/
theorem Regular.forward (h : b.Regular inputs record) {now input : Nat} {link : Lookup.Link}
    {packet : Packet Request} {rest : Port Request} {arbiter : Arbiter}
    (hlink : b.switch.inputs[input]? = some link)
    (hpop : link.requests.pop? now = some (packet, rest))
    (harbiter : arbiter.inputs = b.switch.inputs.length) (delay : Nat) :
    ∃ record', (b.moved (b.switch.granted arbiter input link rest,
      b.server.link.request (stamped b.switch.shift (input, packet.item)) delay now)).Regular
        inputs record' := by
  have hitems := Port.items_of_pop? hpop
  refine ⟨{ record with
    grants := record.grants ++ [(input, packet.item)]
    outstanding := {(input, packet.item)} + record.outstanding }, ?_⟩
  have hfits := h.stampable link (List.mem_of_getElem? hlink)
  rw [hitems] at hfits
  refine ⟨h.shape.granted (harbiter.trans h.shape.links) input link rest, ⟨arbiter, rfl⟩,
    h.stampable.of_set rfl rfl fun req hreq => hfits req (List.mem_cons_of_mem _ hreq),
    fun grant hgrant => ?_, h.echoes, fun i link' hlink' => ?_, ?_, ?_, ?_, h.answered, h.due⟩
  · rcases List.mem_append.mp hgrant with hgrant | hgrant
    · exact h.granted grant hgrant
    · rw [List.mem_singleton.mp hgrant, ← h.shape.links]
      exact ⟨(List.getElem?_eq_some_iff.mp hlink).1, hfits packet.item List.mem_cons_self⟩
  · change (b.switch.inputs.set input { link with requests := rest })[i]? = some link' at hlink'
    obtain ⟨rfl, -, rfl⟩ | ⟨hne, hlink'⟩ := getElem?_set_cases hlink'
    · have hold := h.inputs i link hlink
      refine ⟨?_, hold.collected, ?_, hold.responses⟩
      · show b.asked i = _ ++ rest.items
        rw [hold.asked, hitems, grantsOf_append_self, List.append_assoc]
        rfl
      · show (b.switch.stats.grants.modify i (· + 1))[i]? = _
        rw [List.getElem?_modify_eq, hold.grants, grantsOf_append_self, List.length_append]
        rfl
    · have hold := h.inputs i link' hlink'
      refine ⟨?_, hold.collected, ?_, hold.responses⟩
      · rw [grantsOf_append_of_ne (Ne.symm hne)]
        exact hold.asked
      · show (b.switch.stats.grants.modify input (· + 1))[i]? = _
        rw [List.getElem?_modify_ne _ _ (Ne.symm hne), hold.grants, grantsOf_append_of_ne (Ne.symm hne)]
  · show b.server.fetched ++ (b.server.link.requests.send _ delay now).items = _
    rw [Port.items_send, ← List.append_assoc, List.map_append]
    exact congrArg (· ++ _) h.forwarded
  · show _ = ↑(record.returns.map (·.1)) + ({(input, packet.item)} + record.outstanding)
    rw [← Multiset.coe_add, h.once, Multiset.coe_singleton]
    abel
  · show _ = (↑(b.server.link.requests.send _ delay now).items : Multiset Request) + _ + _
    rw [Multiset.map_add, Multiset.map_singleton]
    change {stamped b.switch.shift (input, packet.item)}
      + record.outstanding.map (stamped b.switch.shift)
        = _ + ↑b.server.held + (↑(record.due.map (·.1)) : Multiset Request)
    rw [h.outstanding, Port.items_send, ← Multiset.coe_add, Multiset.coe_singleton]
    abel

theorem Regular.move (h : b.Regular inputs record) {now : Nat} {next : Switch × Lookup.Link}
    (hmove : Move now (b.switch, b.server.link) next) :
    ∃ record', (b.moved next).Regular inputs record' := by
  generalize hfirst : (b.switch, b.server.link) = first at hmove
  cases hmove with
  | deliver hpop hlink =>
    cases hfirst
    exact h.deliver hpop hlink
  | forward hlink hpop harbiter =>
    cases hfirst
    exact h.forward hlink hpop harbiter _

theorem Regular.moves (h : b.Regular inputs record) {now : Nat} {next : Switch × Lookup.Link}
    (hmoves : Relation.ReflTransGen (Move now) (b.switch, b.server.link) next) :
    ∃ record', (b.moved next).Regular inputs record' := by
  induction hmoves with
  | refl => exact ⟨record, h⟩
  | tail _ hmove ih =>
    obtain ⟨record', h'⟩ := ih
    exact h'.move hmove

theorem Regular.cycle_moves (h : b.Regular inputs record) (now : Nat) :
    (b.switch.cycle now b.server.link).error? = none ∧
      Relation.ReflTransGen (Move now) (b.switch, b.server.link)
        (b.switch.cycle now b.server.link).state := by
  obtain ⟨arbiter, hmode⟩ := h.arbitrated
  exact h.shape.cycle_moves hmode h.deliverable h.stampable now

theorem Regular.cycle (h : b.Regular inputs record) (now : Nat) :
    ∃ record', (b.step (.cycle now)).Regular inputs record' :=
  h.moves (h.cycle_moves now).2

/-! ## All other events -/

theorem Regular.ask (h : b.Regular inputs record) {input : Nat} {req : Request} {delay now : Nat}
    (hfits : (Event.ask input req delay now).fits inputs = true) :
    (b.step (.ask input req delay now)).Regular inputs record := by
  have hfit : req.tag.toNat * 2 ^ b.switch.shift < 2 ^ 32 := by
    have hpow : 2 ^ (32 - b.switch.shift) * 2 ^ b.switch.shift = 2 ^ 32 := by
      rw [← Nat.pow_add, Nat.sub_add_cancel (Nat.le_of_lt h.shape.shift_lt)]
    rw [← hpow, h.shape.shift]
    exact Nat.mul_lt_mul_of_pos_right (of_decide_eq_true hfits) (Nat.two_pow_pos _)
  rw [step]
  split
  · exact h
  · rename_i link hlink
    refine ⟨h.shape.withLink input _, h.arbitrated, h.stampable.of_set rfl rfl fun r hr => ?_,
      h.granted, h.echoes, fun i link' hlink' => ?_, h.forwarded, h.once, h.outstanding, h.answered,
      h.due⟩
    · rw [Link.request, Port.items_send, List.mem_append, List.mem_singleton] at hr
      rcases hr with hr | rfl
      · exact h.stampable link (List.mem_of_getElem? hlink) r hr
      · exact hfit
    · obtain ⟨rfl, -, rfl⟩ | ⟨hne, hlink'⟩ := getElem?_set_cases hlink'
      · have hold := h.inputs i link hlink
        refine ⟨?_, hold.collected, hold.grants, hold.responses⟩
        show Function.update b.asked i _ i = _ ++ (link.requests.send req delay now).items
        rw [Function.update_self, hold.asked, Port.items_send, List.append_assoc]
      · have hold := h.inputs i link' hlink'
        refine ⟨?_, hold.collected, hold.grants, hold.responses⟩
        show Function.update b.asked input _ i = _
        rw [Function.update_of_ne hne]
        exact hold.asked

theorem Regular.collect (h : b.Regular inputs record) (input now : Nat) :
    (b.step (.collect input now)).Regular inputs record := by
  rw [step]
  split
  · exact h
  · rename_i link hlink
    split
    · exact h
    · rename_i packet rest hpop
      refine ⟨h.shape.withLink input _, h.arbitrated,
        h.stampable.of_set rfl rfl (h.stampable link (List.mem_of_getElem? hlink)), h.granted,
        h.echoes, fun i link' hlink' => ?_, h.forwarded, h.once, h.outstanding, h.answered, h.due⟩
      · obtain ⟨rfl, -, rfl⟩ | ⟨hne, hlink'⟩ := getElem?_set_cases hlink'
        · have hold := h.inputs i link hlink
          refine ⟨hold.asked, ?_, hold.grants, hold.responses⟩
          show Function.update b.collected i _ i ++ rest.items = _
          rw [Function.update_self, List.append_assoc, ← hold.collected, Port.items_of_pop? hpop]
          rfl
        · have hold := h.inputs i link' hlink'
          refine ⟨hold.asked, ?_, hold.grants, hold.responses⟩
          show Function.update b.collected input _ i ++ _ = _
          rw [Function.update_of_ne hne]
          exact hold.collected

theorem Regular.fetch (h : b.Regular inputs record) (now : Nat) :
    (b.step (.fetch now)).Regular inputs record := by
  rw [step, Responder.fetch]
  split
  · exact h
  · rename_i packet rest hpop
    have hitems := Port.items_of_pop? hpop
    refine ⟨h.shape, h.arbitrated, h.stampable, h.granted, h.echoes, fun i link hlink => ?_, ?_,
      h.once, ?_, h.answered, h.due⟩
    · have hold := h.inputs i link hlink
      exact ⟨hold.asked, hold.collected, hold.grants, hold.responses⟩
    · show b.server.fetched ++ [packet.item] ++ rest.items = record.grants.map _
      rw [List.append_assoc, List.singleton_append, ← hitems]
      exact h.forwarded
    · show record.outstanding.map (stamped b.switch.shift)
        = ↑rest.items + ↑(b.server.held ++ [packet.item]) + ↑(record.due.map (·.1))
      rw [h.outstanding, hitems, ← Multiset.coe_add, Multiset.coe_singleton, ← Multiset.cons_coe,
        ← Multiset.singleton_add]
      abel

theorem Regular.answer (h : b.Regular inputs record) (pick : Nat) (rsp : Response)
    (delay now : Nat) : ∃ record', (b.step (.answer pick rsp delay now)).Regular inputs record' := by
  rw [step, Responder.answer]
  split
  · exact ⟨record, h⟩
  · rename_i req hpick
    refine ⟨{ record with due := record.due ++ [(req, { rsp with tag := req.tag })] }, ?_⟩
    refine ⟨h.shape, h.arbitrated, h.stampable, h.granted, fun answer hanswer => ?_,
      fun i link hlink => ?_, h.forwarded, h.once, ?_, ?_, ?_⟩
    · rcases List.mem_append.mp hanswer with hanswer | hanswer
      · exact h.echoes answer hanswer
      · rw [List.mem_singleton.mp hanswer]
    · have hold := h.inputs i link hlink
      exact ⟨hold.asked, hold.collected, hold.grants, hold.responses⟩
    · show record.outstanding.map (stamped b.switch.shift)
        = ↑b.server.link.requests.items + ↑(b.server.held.eraseIdx pick) + _
      rw [h.outstanding, Responder.coe_eraseIdx hpick, List.map_append, ← Multiset.coe_add]
      show _ = _ + (_ + {req})
      abel
    · show b.server.answered ++ [_] = _
      rw [h.answered, List.append_assoc]
    · show _ = (b.server.link.responses.send _ delay now).items
      rw [List.map_append, h.due, Port.items_send]
      rfl

theorem Regular.step (h : b.Regular inputs record) {event : Event}
    (hfits : event.fits inputs = true) : ∃ record', (b.step event).Regular inputs record' := by
  cases event with
  | ask input req delay now => exact ⟨record, h.ask hfits⟩
  | collect input now => exact ⟨record, h.collect input now⟩
  | cycle now => exact h.cycle now
  | fetch now => exact ⟨record, h.fetch now⟩
  | answer pick rsp delay now => exact h.answer pick rsp delay now

theorem Regular.after (h : b.Regular inputs record) {events : List Event}
    (hfits : ∀ event ∈ events, event.fits inputs = true) :
    ∃ record', (b.after events).Regular inputs record' := by
  induction events generalizing b record with
  | nil => exact ⟨record, h⟩
  | cons event events ih =>
    obtain ⟨record', h'⟩ := h.step (hfits event List.mem_cons_self)
    exact ih h' fun other hother => hfits other (List.mem_cons_of_mem _ hother)

/-! ## Accounts -/

theorem Regular.accounted (h : b.Regular inputs record) : b.Accounted inputs record where
  sound now := (h.cycle_moves now).1
  forwarded := h.forwarded
  sources grant hgrant := (h.granted grant hgrant).1
  inputs i hi := by
    rw [← h.shape.links] at hi
    have hlink := List.getElem?_eq_getElem hi
    exact ⟨_, hlink, h.inputs i _ hlink⟩
  once := h.once
  outstanding := h.outstanding
  answered := h.answered
  due := h.due
  tags grant hgrant other hother hne heq := by
    have hinput := (h.stamped_tag (h.mem_grants hgrant)).1
    rw [heq, (h.stamped_tag (h.mem_grants hother)).1] at hinput
    exact hne hinput.symm

theorem regular_fresh {inputs : Nat} (hinputs : 2 ≤ inputs) (hle : inputs ≤ 32)
    (config : SwitchConfig) :
    ({ switch := .fresh inputs config } : Bench).Regular inputs {} := by
  have hmode : modeFor config.policy inputs = .arbitrated (.ofInputs config.policy inputs) :=
    if_neg (by omega)
  refine ⟨shape_fresh (by omega) hle config, ⟨_, hmode⟩, fun link hlink req hreq => ?_,
    fun _ hgrant => absurd hgrant List.not_mem_nil, fun _ hanswer => absurd hanswer List.not_mem_nil,
    fun i link hlink => ?_, rfl, rfl, rfl, rfl, rfl⟩
  · rw [List.eq_of_mem_replicate hlink] at hreq
    exact absurd hreq List.not_mem_nil
  · have hi := (List.getElem?_eq_some_iff.mp hlink).1
    rw [List.eq_of_mem_replicate (List.mem_of_getElem? hlink)]
    change i < (List.replicate inputs _).length at hi
    rw [List.length_replicate] at hi
    have hzero : (List.replicate inputs 0)[i]? = some 0 := by simp [hi]
    exact ⟨rfl, rfl, hzero, hzero⟩

/-- **Every response returns to the input whose request it answers**, with the tag of this request
and otherwise unchanged, whatever is sent to the inputs of a switch and whenever it works, above any
server that answers each request once and repeats its tag. -/
theorem returned_to_requester {inputs : Nat} (hinputs : 2 ≤ inputs) {config : SwitchConfig}
    {s : Switch} (hnew : Switch.new inputs config = .ok s) {events : List Event}
    (hfits : ∀ event ∈ events, event.fits inputs = true) :
    ∃ record, (({ switch := s } : Bench).after events).Accounted inputs record := by
  have hle : inputs ≤ 32 := by
    simp only [Switch.new, Except.bind_eq_ok] at hnew
    obtain ⟨_, hcheck, -⟩ := hnew
    exact (checkInputs_eq_ok.mp hcheck).2
  rw [Switch.eq_fresh_of_new hnew]
  obtain ⟨record, hrecord⟩ := (regular_fresh hinputs hle config).after hfits
  exact ⟨record, hrecord.accounted⟩

/-- Three inputs use the same tag at once, and one of them uses it twice.  The server answers the
requests in another order than they came in, and one of its responses is still on its way. -/
theorem returned_to_requester_of_three :
    ∃ s record, Switch.new 3 {} = .ok s ∧
      (({ switch := s } : Bench).after
        [.ask 0 ⟨0x100, 1, 7, 10⟩ 1 0, .ask 1 ⟨0x200, 2, 7, 11⟩ 1 0, .ask 2 ⟨0x300, 3, 7, 12⟩ 1 0,
          .ask 2 ⟨0x400, 4, 7, 13⟩ 1 0, .cycle 1, .cycle 2, .cycle 3, .cycle 4, .fetch 5, .fetch 5,
          .fetch 5, .fetch 5, .answer 2 ⟨0, .sentinel, 12, 0x300, 3⟩ 1 5,
          .answer 0 ⟨0, .sentinel, 10, 0x100, 1⟩ 1 5, .answer 1 ⟨0, .sentinel, 13, 0x400, 4⟩ 1 5,
          .cycle 6, .cycle 7, .collect 2 8]).Accounted 3 record := by
  obtain ⟨record, hrecord⟩ := @returned_to_requester 3 (by decide) {} _ rfl
    [.ask 0 ⟨0x100, 1, 7, 10⟩ 1 0, .ask 1 ⟨0x200, 2, 7, 11⟩ 1 0,
      .ask 2 ⟨0x300, 3, 7, 12⟩ 1 0, .ask 2 ⟨0x400, 4, 7, 13⟩ 1 0, .cycle 1, .cycle 2, .cycle 3,
      .cycle 4, .fetch 5, .fetch 5, .fetch 5, .fetch 5, .answer 2 ⟨0, .sentinel, 12, 0x300, 3⟩ 1 5,
      .answer 0 ⟨0, .sentinel, 10, 0x100, 1⟩ 1 5, .answer 1 ⟨0, .sentinel, 13, 0x400, 4⟩ 1 5,
      .cycle 6, .cycle 7, .collect 2 8] (by decide)
  exact ⟨_, record, rfl, hrecord⟩

end Bench

end Switch

end BoundsCheck
