import BoundsCheck.Proofs.Build
import BoundsCheck.Proofs.Stamp
import BoundsCheck.Proofs.Underway

/-!
# Traffic through a switch

To an input of a switch it makes no difference whether one of its lookups is still on its own link
or already on the shared one: there its tag is stamped, but the stamp tells whose it is and what
its tag was.  All lookups of an input together are its traffic, and no cycle of the switch changes
the traffic of any input.

* `Switch.share` — the lookups of one input among those of all, with the tags they had.
* `Switch.traffic` — all lookups of an input, on its own link and on the shared one.
* `Switch.Shape` — what is the same for a switch all the time.
* `Switch.Routed` — all lookups on the shared link come from some input.
* `Switch.traffic_cycle` — a cycle goes through and keeps the traffic.
-/

set_option autoImplicit false

namespace BoundsCheck

/-- What is found in a list after one of its places was changed. -/
theorem getElem?_set_cases {α : Type} {l : List α} {i j : Nat} {new a : α}
    (h : (l.set i new)[j]? = some a) :
    (j = i ∧ i < l.length ∧ a = new) ∨ (j ≠ i ∧ l[j]? = some a) := by
  rw [List.getElem?_set] at h
  split at h
  · rename_i heq
    rw [Option.ite_none_right_eq_some, Option.some.injEq] at h
    exact .inl ⟨heq.symm, h.1, h.2.symm⟩
  · rename_i hne
    exact .inr ⟨fun heq => hne heq.symm, h⟩

namespace Switch

open Lookup TagPacking

/-! ## Shares -/

/-- The lookups of one input among those of all inputs, with the tags they had at the input. -/
def share (shift input : Nat) (reqs : Multiset Request) : Multiset Request :=
  (reqs.filter fun req => inputOf shift req.tag = input).map fun req =>
    { req with tag := unstamp shift req.tag }

@[simp] theorem share_add (shift input : Nat) (reqs others : Multiset Request) :
    share shift input (reqs + others) = share shift input reqs + share shift input others := by
  rw [share, Multiset.filter_add, Multiset.map_add]
  rfl

theorem share_singleton_self (shift : Nat) (req : Request) :
    share shift (inputOf shift req.tag) {req} = {{ req with tag := unstamp shift req.tag }} := by
  rw [share, Multiset.filter_singleton, if_pos rfl, Multiset.map_singleton]

theorem share_singleton_of_ne {shift input : Nat} {req : Request}
    (h : inputOf shift req.tag ≠ input) : share shift input {req} = 0 := by
  rw [share, Multiset.filter_singleton, if_neg h]
  rfl

/-- With a single input all lookups are its own. -/
theorem share_bypass (reqs : Multiset Request) : share 0 0 reqs = reqs := by
  rw [share, Multiset.filter_eq_self.mpr fun req _ => inputOf_zero req.tag]
  simp only [unstamp_zero, Multiset.map_id']

theorem share_bypass_succ (input : Nat) (reqs : Multiset Request) :
    share 0 (input + 1) reqs = 0 := by
  rw [share, Multiset.filter_eq_nil.mpr fun req _ => ?_, Multiset.map_zero]
  rw [inputOf_zero]
  exact (Nat.succ_ne_zero input).symm

/-- All lookups of an input: those on its own link, and its share of those on the shared one. -/
def traffic (s : Switch) (lower : Lookup.Link) (input : Nat) : Multiset Request :=
  s.inputs[input]?.elim 0 underway + share s.shift input (underway lower)

/-- All lookups come from some input. -/
def Routed (shift inputs : Nat) (reqs : Multiset Request) : Prop :=
  ∀ req ∈ reqs, inputOf shift req.tag < inputs

theorem Routed.add {shift inputs : Nat} {reqs others : Multiset Request}
    (h : Routed shift inputs reqs) (h' : Routed shift inputs others) :
    Routed shift inputs (reqs + others) := by
  intro req hmem
  exact (Multiset.mem_add.mp hmem).elim (h req) (h' req)

theorem Routed.mono {shift inputs : Nat} {reqs others : Multiset Request}
    (h : Routed shift inputs reqs) (hle : others ≤ reqs) : Routed shift inputs others :=
  fun req hmem => h req (Multiset.mem_of_le hle hmem)

/-! ## Shape -/

/-- What is the same for a switch with some inputs all the time. -/
structure Shape (inputs : Nat) (s : Switch) : Prop where
  /-- A switch has at least one input. -/
  pos : 0 < inputs
  /-- A switch has at most 32 inputs. -/
  le : inputs ≤ 32
  /-- There is a link for each input. -/
  links : s.inputs.length = inputs
  /-- The shift leaves room for the number of each input. -/
  shift : s.shift = tagShift inputs
  /-- A single input is passed through, several inputs take turns. -/
  mode : (s.mode = .bypass ∧ inputs = 1) ∨ ∃ arbiter, s.mode = .arbitrated arbiter ∧
    arbiter.inputs = inputs
  /-- Requests are counted for each input. -/
  grants : s.stats.grants.length = inputs
  /-- Responses are counted for each input. -/
  responses : s.stats.responses.length = inputs

variable {inputs : Nat} {s : Switch}

theorem Shape.shift_lt (h : s.Shape inputs) : s.shift < 32 := by
  have hle := tagShift_le_five h.le
  rw [h.shift]
  omega

theorem Shape.lt_two_pow_shift (h : s.Shape inputs) {input : Nat} (hlt : input < inputs) :
    input < 2 ^ s.shift := by
  rw [h.shift]
  exact lt_two_pow_tagShift hlt

theorem Shape.deliver (h : s.Shape inputs) (now : Nat) (rsp : Response) :
    (s.deliver now rsp).state.Shape inputs := by
  simp only [Switch.deliver]
  split
  · exact h
  · exact ⟨h.pos, h.le, by rw [← h.links]; exact List.length_set, h.shift, h.mode, h.grants,
      by rw [← h.responses]; exact List.length_modify _ _ _⟩

theorem Shape.route (h : s.Shape inputs) (now : Nat) (lower : Lookup.Link) :
    (s.route now lower).state.1.Shape inputs := by
  rw [Switch.route]
  split
  · exact h
  · exact h.deliver now _

theorem Shape.forward (h : s.Shape inputs) (now input : Nat) (lower : Lookup.Link) :
    (s.forward now input lower).state.1.Shape inputs := by
  rw [Switch.forward]
  split
  · exact h
  · split
    · exact h
    · simp only
      split
      · exact h
      · exact ⟨h.pos, h.le, by rw [← h.links]; exact List.length_set, h.shift, h.mode,
          by rw [← h.grants]; exact List.length_modify _ _ _, h.responses⟩

theorem inputs_advance (a : Arbiter) (winner : Nat) : (a.advance winner).inputs = a.inputs := by
  rw [Arbiter.advance]
  split <;> rfl

theorem Shape.withArbiter (h : s.Shape inputs) {arbiter : Arbiter}
    (ha : arbiter.inputs = inputs) :
    ({ s with mode := .arbitrated arbiter } : Switch).Shape inputs :=
  ⟨h.pos, h.le, h.links, h.shift, .inr ⟨arbiter, rfl, ha⟩, h.grants, h.responses⟩

theorem Shape.grant (h : s.Shape inputs) (now : Nat) {arbiter : Arbiter}
    (ha : arbiter.inputs = inputs) (lower : Lookup.Link) :
    (s.grant now arbiter lower).state.1.Shape inputs := by
  rw [Switch.grant, Arbiter.select]
  rcases arbiter.winner? (s.requestVisible now) with _ | winner
  · exact h
  · exact (h.withArbiter (by rw [inputs_advance, ha])).forward now winner lower

theorem Shape.passThrough (h : s.Shape inputs) (lower : Lookup.Link) :
    (s.passThrough lower).1.Shape inputs := by
  rw [Switch.passThrough]
  split
  · exact h
  · rename_i input others heq
    exact ⟨h.pos, h.le, by rw [← h.links, heq]; rfl, h.shift, h.mode,
      by rw [← h.grants]; exact List.length_modify _ _ _,
      by rw [← h.responses]; exact List.length_modify _ _ _⟩

theorem Shape.inputs_arbiter (h : s.Shape inputs) {arbiter : Arbiter}
    (hmode : s.mode = .arbitrated arbiter) : arbiter.inputs = inputs := by
  rcases h.mode with ⟨hbypass, -⟩ | ⟨other, hother, heq⟩
  · rw [hbypass] at hmode
    cases hmode
  · rw [hother] at hmode
    cases hmode
    exact heq

/-- **A switch keeps its shape**, also in a cycle that is cut short. -/
theorem Shape.cycle (h : s.Shape inputs) (now : Nat) (lower : Lookup.Link) :
    (s.cycle now lower).state.1.Shape inputs := by
  rw [Switch.cycle]
  split
  · exact h.passThrough lower
  · rename_i arbiter hmode
    exact Outcome.andThen_keeps (P := fun next : Switch × Lookup.Link => next.1.Shape inputs)
      (h.route now lower) fun next hnext => hnext.grant now (h.inputs_arbiter hmode) next.2

theorem Shape.reset (h : s.Shape inputs) : s.reset.Shape inputs := by
  refine ⟨h.pos, h.le, (List.length_map _).trans h.links, h.shift, ?_,
    List.length_replicate.trans h.links, List.length_replicate.trans h.links⟩
  rcases h.mode with ⟨hmode, hone⟩ | ⟨arbiter, hmode, hinputs⟩
  · exact .inl ⟨by rw [Switch.reset, hmode, resetMode], hone⟩
  · exact .inr ⟨arbiter.reset, by rw [Switch.reset, hmode, resetMode], hinputs⟩

theorem shape_fresh (hpos : 0 < inputs) (hle : inputs ≤ 32) (config : SwitchConfig) :
    (fresh inputs config).Shape inputs := by
  refine ⟨hpos, hle, List.length_replicate, rfl, ?_, List.length_replicate, List.length_replicate⟩
  rw [fresh, modeFor]
  split
  · rename_i hone
    exact .inl ⟨rfl, hone⟩
  · exact .inr ⟨.ofInputs config.policy inputs, rfl, rfl⟩

/-- A switch has its shape from the beginning. -/
theorem Shape.of_new {config : SwitchConfig} (h : Switch.new inputs config = .ok s) :
    s.Shape inputs := by
  rw [eq_fresh_of_new h]
  simp only [Switch.new, Except.bind_eq_ok] at h
  obtain ⟨_, hcheck, -⟩ := h
  obtain ⟨hpos, hle⟩ := checkInputs_eq_ok.mp hcheck
  exact shape_fresh hpos hle config

/-! ## Traffic -/

/-- The link of one input after the link of another, or the same, input was replaced. -/
theorem elim_underway_set {links : List Lookup.Link} {input : Nat} {old : Lookup.Link}
    (h : links[input]? = some old) (new : Lookup.Link) (other : Nat) :
    (links.set input new)[other]?.elim 0 underway
      = if input = other then underway new else links[other]?.elim 0 underway := by
  rw [List.getElem?_set]
  split
  · rw [if_pos (List.getElem?_eq_some_iff.mp h).1, Option.elim_some]
  · rfl

/-- A response that is delivered to its input stays in the traffic of this input. -/
theorem traffic_route (h : s.Shape inputs) {lower : Lookup.Link}
    (hrouted : Routed s.shift inputs (underway lower)) (now : Nat) :
    (s.route now lower).error? = none ∧ (s.route now lower).state.1.shift = s.shift ∧
      underway (s.route now lower).state.2 ≤ underway lower ∧
      ∀ input, (s.route now lower).state.1.traffic (s.route now lower).state.2 input
        = s.traffic lower input := by
  rw [route]
  split
  · exact ⟨rfl, rfl, le_refl _, fun _ => rfl⟩
  · rename_i packet rest hpop
    have hunder := underway_of_pop?_responses hpop
    have hlt : inputOf s.shift packet.item.tag < s.inputs.length := by
      rw [h.links]
      exact hrouted packet.item.question (mem_underway_of_pop?_responses hpop)
    have hlink : s.inputs[inputOf s.shift packet.item.tag]?
        = some s.inputs[inputOf s.shift packet.item.tag] := List.getElem?_eq_getElem hlt
    simp only [deliver, hlink, Outcome.error?_map, Outcome.error?_ok, Outcome.state_map,
      Outcome.state_ok]
    refine ⟨trivial, trivial, ?_, fun input => ?_⟩
    · rw [hunder]
      exact Multiset.le_add_left _ _
    · rw [traffic, traffic, elim_underway_set hlink, hunder, share_add]
      split
      · rename_i heq
        rw [← heq, hlink, Option.elim_some, underway_respond]
        change _ + {{ packet.item.question with tag := unstamp s.shift packet.item.question.tag }}
          + _ = _ + (share s.shift (inputOf s.shift packet.item.question.tag) _ + _)
        rw [share_singleton_self]
        abel
      · rename_i hne
        have hother : inputOf s.shift packet.item.question.tag ≠ input := hne
        rw [share_singleton_of_ne hother, zero_add]

/-- The requests of an input all fit beside its number. -/
def Fits (s : Switch) (lower : Lookup.Link) : Prop :=
  ∀ input, ∀ req ∈ s.traffic lower input, req.tag.toNat * 2 ^ s.shift < 2 ^ 32

/-- A request that is passed on stays in the traffic of its input. -/
theorem traffic_forward (h : s.Shape inputs) {lower : Lookup.Link}
    (hrouted : Routed s.shift inputs (underway lower)) (hfits : s.Fits lower) (now input : Nat) :
    (s.forward now input lower).error? = none ∧
      Routed s.shift inputs (underway (s.forward now input lower).state.2) ∧
      ∀ other, (s.forward now input lower).state.1.traffic (s.forward now input lower).state.2 other
        = s.traffic lower other := by
  rw [forward]
  split
  · exact ⟨rfl, hrouted, fun _ => rfl⟩
  · rename_i link hlink
    split
    · exact ⟨rfl, hrouted, fun _ => rfl⟩
    · rename_i packet rest hpop
      have hlt : input < inputs := by
        rw [← h.links]
        exact (List.getElem?_eq_some_iff.mp hlink).1
      have hfit : packet.item.tag.toNat * 2 ^ s.shift < 2 ^ 32 := by
        refine hfits input packet.item ?_
        rw [traffic, hlink, Option.elim_some]
        exact Multiset.mem_add.mpr (.inl (mem_underway_of_pop?_requests hpop))
      have hpass : overflows s.shift packet.item.tag = false := by
        rw [← Bool.not_eq_true, overflows_iff (Nat.le_of_lt h.shift_lt), Nat.not_le]
        exact hfit
      have hof := inputOf_stamp h.shift_lt (h.lt_two_pow_shift hlt) hfit
      have hback := unstamp_stamp h.shift_lt (h.lt_two_pow_shift hlt) hfit
      simp only [hpass, Bool.false_eq_true, if_false, Outcome.error?_ok, Outcome.state_ok]
      generalize hreq : ({ packet.item with tag := stamp s.shift input packet.item.tag } : Request)
        = stamped
      have htag : stamped.tag = stamp s.shift input packet.item.tag := by rw [← hreq]
      rw [← htag] at hof hback
      refine ⟨trivial, ?_, fun other => ?_⟩
      · rw [underway_request]
        refine hrouted.add fun req hmem => ?_
        rw [Multiset.mem_singleton.mp hmem, hof]
        exact hlt
      · rw [traffic, traffic, elim_underway_set hlink, underway_request, share_add]
        split
        · rename_i heq
          have hself := share_singleton_self s.shift stamped
          rw [hof, hback] at hself
          rw [← heq, hself, hlink, Option.elim_some, underway_of_pop?_requests hpop, ← hreq]
          abel
        · rename_i hne
          rw [share_singleton_of_ne (by rw [hof]; exact hne), add_zero]

theorem traffic_grant (h : s.Shape inputs) {lower : Lookup.Link}
    (hrouted : Routed s.shift inputs (underway lower)) (hfits : s.Fits lower) (now : Nat)
    {arbiter : Arbiter} (ha : arbiter.inputs = inputs) :
    (s.grant now arbiter lower).error? = none ∧
      Routed s.shift inputs (underway (s.grant now arbiter lower).state.2) ∧
      ∀ input, (s.grant now arbiter lower).state.1.traffic (s.grant now arbiter lower).state.2 input
        = s.traffic lower input := by
  rw [grant, Arbiter.select]
  rcases arbiter.winner? (s.requestVisible now) with _ | winner
  · exact ⟨rfl, hrouted, fun _ => rfl⟩
  · -- the traffic does not depend on where the arbiter stands
    exact traffic_forward (h.withArbiter (by rw [inputs_advance, ha])) hrouted hfits now winner

/-- A switch with a single input only moves lookups from one link to the other. -/
theorem traffic_passThrough (hlinks : s.inputs.length = 1) (hshift : s.shift = 0)
    (lower : Lookup.Link) (input : Nat) :
    (s.passThrough lower).1.traffic (s.passThrough lower).2 input = s.traffic lower input := by
  obtain ⟨link, hlink⟩ := List.length_eq_one_iff.mp hlinks
  rw [passThrough, hlink]
  simp only [traffic, hlink, hshift]
  rcases input with _ | input
  · simp only [List.getElem?_cons_zero, Option.elim_some, share_bypass, underway,
      Port.items_moveInto_fst, Port.items_moveInto_snd, List.map_append, List.map_nil,
      Multiset.coe_nil, ← Multiset.coe_add]
    abel
  · simp [share_bypass_succ]

/-- **No cycle of a switch changes the traffic of an input**, nor is it cut short, provided that
all responses belong to some input and all requests leave room for its number. -/
theorem traffic_cycle (h : s.Shape inputs) {lower : Lookup.Link}
    (hrouted : Routed s.shift inputs (underway lower)) (hfits : s.Fits lower) (now : Nat) :
    (s.cycle now lower).error? = none ∧
      Routed s.shift inputs (underway (s.cycle now lower).state.2) ∧
      ∀ input, (s.cycle now lower).state.1.traffic (s.cycle now lower).state.2 input
        = s.traffic lower input := by
  rw [cycle]
  split
  · rename_i hmode
    have hone : inputs = 1 := by
      rcases h.mode with ⟨-, hone⟩ | ⟨other, hother, -⟩
      · exact hone
      · rw [hother] at hmode
        cases hmode
    have hshift : s.shift = 0 := by rw [h.shift, hone, tagShift_one]
    refine ⟨rfl, ?_, traffic_passThrough (h.links.trans hone) hshift lower⟩
    intro req _
    rw [hshift, inputOf_zero]
    exact h.pos
  · rename_i arbiter hmode
    obtain ⟨herror, hshift, hle, htraffic⟩ := traffic_route h hrouted now
    have hfits' : (s.route now lower).state.1.Fits (s.route now lower).state.2 := by
      intro input req hmem
      rw [htraffic] at hmem
      rw [hshift]
      exact hfits input req hmem
    have hrouted' : Routed (s.route now lower).state.1.shift inputs
        (underway (s.route now lower).state.2) := by
      rw [hshift]
      exact hrouted.mono hle
    obtain ⟨hgrant, hrouted'', htraffic'⟩ :=
      traffic_grant (h.route now lower) hrouted' hfits' now (h.inputs_arbiter hmode)
    rw [Outcome.andThen_of_none herror]
    refine ⟨hgrant, ?_, fun input => (htraffic' input).trans (htraffic input)⟩
    rwa [hshift] at hrouted''

/-! ## What holds of all links

A switch takes single packets off its links and puts them on others, with another tag, or moves all
of them.  What survives these moves holds of all links for ever. -/

/-- A property of links that survives what a switch does with their packets. -/
structure Survives (delay : Nat) (P : Lookup.Link → Prop) : Prop where
  /-- An answer is taken off one link and put on another. -/
  deliver : ∀ {lower link : Lookup.Link} {packet : Packet Response} {rest : Port Response}
    {now : Nat} (tag : Tag), P lower → P link → lower.responses.pop? now = some (packet, rest) →
      P { lower with responses := rest } ∧ P (link.respond { packet.item with tag } 1 now)
  /-- A question is taken off one link and put on another. -/
  forward : ∀ {lower link : Lookup.Link} {packet : Packet Request} {rest : Port Request}
    {now : Nat} (tag : Tag), P lower → P link → link.requests.pop? now = some (packet, rest) →
      P { link with requests := rest } ∧ P (lower.request { packet.item with tag } delay now)
  /-- All questions are moved one way, and all answers the other way. -/
  move : ∀ {lower link : Lookup.Link}, P lower → P link →
    P ⟨(link.requests.moveInto lower.requests).1, (lower.responses.moveInto link.responses).2⟩ ∧
      P ⟨(link.requests.moveInto lower.requests).2, (lower.responses.moveInto link.responses).1⟩

theorem survives_answers (f : BufferId → RangeEntry) (delay : Nat) :
    Survives delay (Answers f) where
  deliver tag hlower hlink hpop :=
    ⟨(hlower.pop? hpop).2, hlink.respond (by exact (hlower.pop? hpop).1) 1 _⟩
  forward tag hlower hlink _ := ⟨hlink, hlower.request _ _ _⟩
  move hlower hlink := by
    refine ⟨fun rsp hmem => ?_, fun rsp hmem => absurd hmem List.not_mem_nil⟩
    rw [Port.items_moveInto_snd, List.mem_append] at hmem
    exact hmem.elim (hlink rsp) (hlower rsp)

theorem survives_timely {delay : Nat} (hdelay : delay ≠ 0) :
    Survives delay fun link => link.requests.Timely where
  deliver _ hlower hlink _ := ⟨hlower, hlink⟩
  forward _ hlower hlink hpop := ⟨hlink.pop? hpop, hlower.send _ hdelay _⟩
  move hlower hlink := ⟨Port.timely_default, hlink.moveInto hlower⟩

section Survives

variable {P : Lookup.Link → Prop} {lower : Lookup.Link} {now : Nat}

@[simp] theorem delay_deliver (now : Nat) (rsp : Response) (s : Switch) :
    (s.deliver now rsp).state.delay = s.delay := by
  simp only [deliver]
  split <;> rfl

@[simp] theorem delay_route (now : Nat) (lower : Lookup.Link) (s : Switch) :
    (s.route now lower).state.1.delay = s.delay := by
  rw [route]
  split
  · rfl
  · exact delay_deliver now _ s

@[simp] theorem delay_forward (now input : Nat) (lower : Lookup.Link) (s : Switch) :
    (s.forward now input lower).state.1.delay = s.delay := by
  rw [forward]
  split
  · rfl
  · split
    · rfl
    · simp only
      split
      · rfl
      · rfl

@[simp] theorem delay_cycle (now : Nat) (lower : Lookup.Link) (s : Switch) :
    (s.cycle now lower).state.1.delay = s.delay := by
  rw [cycle]
  split
  · rw [passThrough]
    split
    · rfl
    · rfl
  · refine Outcome.andThen_keeps (P := fun next : Switch × Lookup.Link => next.1.delay = s.delay)
      (delay_route now lower s) fun next hnext => ?_
    simp only [grant]
    split
    · exact hnext
    · exact (delay_forward now _ _ _).trans hnext

theorem Survives.route (hP : Survives s.delay.toNat P) (hlower : P lower)
    (hlinks : ∀ link ∈ s.inputs, P link) (now : Nat) :
    P (s.route now lower).state.2 ∧ ∀ link ∈ (s.route now lower).state.1.inputs, P link := by
  rw [Switch.route]
  split
  · exact ⟨hlower, hlinks⟩
  · rename_i packet rest hpop
    simp only [Switch.deliver]
    split
    · exact ⟨(hP.deliver 0 hlower hlower hpop).1, hlinks⟩
    · rename_i link hlink
      obtain ⟨hrest, hnew⟩ := hP.deliver (unstamp s.shift packet.item.tag) hlower
        (hlinks link (List.mem_of_getElem? hlink)) hpop
      refine ⟨hrest, fun other hmem => ?_⟩
      rcases List.mem_or_eq_of_mem_set hmem with hmem | rfl
      · exact hlinks other hmem
      · exact hnew

theorem Survives.forward_step (hP : Survives s.delay.toNat P) (hlower : P lower)
    (hlinks : ∀ link ∈ s.inputs, P link) (input : Nat) :
    P (s.forward now input lower).state.2 ∧
      ∀ link ∈ (s.forward now input lower).state.1.inputs, P link := by
  rw [Switch.forward]
  split
  · exact ⟨hlower, hlinks⟩
  · rename_i link hlink
    split
    · exact ⟨hlower, hlinks⟩
    · rename_i packet rest hpop
      simp only
      split
      · exact ⟨hlower, hlinks⟩
      · obtain ⟨hrest, hnew⟩ := hP.forward (stamp s.shift input packet.item.tag) hlower
          (hlinks link (List.mem_of_getElem? hlink)) hpop
        refine ⟨hnew, fun other hmem => ?_⟩
        rcases List.mem_or_eq_of_mem_set hmem with hmem | rfl
        · exact hlinks other hmem
        · exact hrest

theorem Survives.grant (hP : Survives s.delay.toNat P) (hlower : P lower)
    (hlinks : ∀ link ∈ s.inputs, P link) (arbiter : Arbiter) :
    P (s.grant now arbiter lower).state.2 ∧
      ∀ link ∈ (s.grant now arbiter lower).state.1.inputs, P link := by
  rw [Switch.grant, Arbiter.select]
  rcases arbiter.winner? (s.requestVisible now) with _ | winner
  · exact ⟨hlower, hlinks⟩
  · exact Survives.forward_step (s := { s with mode := .arbitrated (arbiter.advance winner) }) hP
      hlower hlinks winner

theorem Survives.passThrough (hP : Survives s.delay.toNat P) (hlower : P lower)
    (hlinks : ∀ link ∈ s.inputs, P link) :
    P (s.passThrough lower).2 ∧ ∀ link ∈ (s.passThrough lower).1.inputs, P link := by
  rw [Switch.passThrough]
  split
  · exact ⟨hlower, hlinks⟩
  · rename_i input others heq
    rw [heq] at hlinks
    obtain ⟨habove, hbelow⟩ := hP.move hlower (hlinks input List.mem_cons_self)
    refine ⟨hbelow, fun link hmem => ?_⟩
    rcases List.mem_cons.mp hmem with rfl | hmem
    · exact habove
    · exact hlinks link (List.mem_cons_of_mem _ hmem)

/-- **What survives the moves of a switch holds of all its links after a cycle**, also after one
that is cut short. -/
theorem Survives.cycle (hP : Survives s.delay.toNat P) (hlower : P lower)
    (hlinks : ∀ link ∈ s.inputs, P link) (now : Nat) :
    P (s.cycle now lower).state.2 ∧ ∀ link ∈ (s.cycle now lower).state.1.inputs, P link := by
  rw [Switch.cycle]
  split
  · exact hP.passThrough hlower hlinks
  · rename_i arbiter hmode
    rw [Outcome.andThen]
    split
    · obtain ⟨hlower', hlinks'⟩ := hP.route hlower hlinks now
      exact Survives.grant (by rwa [delay_route]) hlower' hlinks' arbiter
    · exact hP.route hlower hlinks now

end Survives

end Switch

end BoundsCheck
