import BoundsCheck.Proofs.Verdicts

/-!
# Accesses out of bounds

An access is compared with the entry of the buffer that its address leads to.  If no addresses were
mapped by hand, that buffer has an entry, and the address belongs to it, so nothing is out of
bounds.  The exception are empty buffers, whose first address can be mapped although it is not one
of theirs.

* `Verdict.Within` — what a verdict says of a buffer that its address was mapped to.
* `Drive.within_of_mem_verdicts` — it is what each core says.
* `Drive.exists_core_of_record` — all verdicts are those of a core.
* `Drive.out_of_bounds_only_empty` — so only accesses to empty buffers are out of bounds.
-/

set_option autoImplicit false

namespace BoundsCheck

open Lookup

/-! ## Verdicts on addresses of a buffer -/

/-- The verdict compares an access with the entry of a buffer that the address was mapped to by a
resolver of this kind. -/
structure Verdict.Within (kind : ResolverKind) (entry : RangeEntry) (v : Verdict) : Prop where
  /-- The buffer is one of the table. -/
  tracked : v.tracked = true
  /-- The verdict tells where the buffer is. -/
  base : v.base = entry.base
  /-- It tells how large the buffer is. -/
  size : v.size = entry.size
  /-- The access is out of bounds exactly if the buffer is empty. -/
  outOfBounds_iff : v.reason = some .outOfBounds ↔ entry.size = 0
  /-- An empty buffer was found by its first address. -/
  exact_of_empty : entry.size = 0 → kind = .exact
  /-- An access that was found by the range of the buffer is in bounds. -/
  inBounds_of_range : kind = .range → v.inBounds = true
  /-- It can be wrong only because it writes. -/
  writes_of_range : kind = .range → v.isViolation = true → v.reason = some .writeToReadOnly

namespace Verdict

theorem objection?_eq_outOfBounds_iff {inBounds permitted : Bool} :
    objection? inBounds permitted = some .outOfBounds ↔ inBounds = false := by
  cases inBounds with
  | false => exact iff_of_true rfl rfl
  | true =>
    cases permitted with
    | false => exact iff_of_false (by decide) (by decide)
    | true => exact iff_of_false (by decide) (by decide)

/-- The address is the first one of its buffer or one that the buffer has. -/
theorem within_judge {kind : ResolverKind} {entry : RangeEntry} {addr : Address}
    (hknown : entry.isSentinel = false)
    (hfound : kind = .exact ∧ entry.base = addr ∨ kind = .range ∧ entry.contains addr = true)
    (id : BufferId) (isStore : Bool) (now : Nat) (uuid : Uuid) :
    (judge addr id isStore entry now uuid).Within kind entry := by
  have hhas : entry.contains addr = false ↔ entry.size = 0 := by
    obtain ⟨-, rfl⟩ | ⟨-, hhas⟩ := hfound
    · rw [← Bool.not_eq_true, RangeEntry.contains_base_iff, not_not]
    · exact iff_of_false (by rw [hhas]; decide) (RangeEntry.size_ne_zero_of_contains hhas)
  have hrange : kind = .range → entry.contains addr = true := by
    intro hkind
    obtain ⟨hexact, -⟩ | ⟨-, hhas⟩ := hfound
    · cases hkind.symm.trans hexact
    · exact hhas
  refine ⟨?_, rfl, rfl, objection?_eq_outOfBounds_iff.trans hhas, fun hempty => ?_, hrange, ?_⟩
  · show (!entry.isSentinel) = true
    rw [hknown]
    rfl
  · obtain ⟨hexact, -⟩ | ⟨-, hin⟩ := hfound
    · exact hexact
    · exact absurd hempty (RangeEntry.size_ne_zero_of_contains hin)
  · intro hkind hviolation
    change (!entry.isSentinel && !(entry.contains addr && !(entry.readOnly && isStore))) = true
      at hviolation
    show objection? (entry.contains addr) _ = _
    rw [hrange hkind, hknown, Bool.true_and, Bool.not_false, Bool.true_and,
      Bool.not_eq_true'] at hviolation
    rw [hrange hkind, hviolation]
    rfl

/-- When a verdict was reached does not matter. -/
theorem within_timeless {kind : ResolverKind} {entry : RangeEntry} {v : Verdict} :
    v.timeless.Within kind entry ↔ v.Within kind entry :=
  ⟨fun h => ⟨h.1, h.2, h.3, h.4, h.5, h.6, h.7⟩, fun h => ⟨h.1, h.2, h.3, h.4, h.5, h.6, h.7⟩⟩

end Verdict

/-- An entry of the table is the one that is configured for its buffer. -/
theorem Config.entry?_eq_some {c : Config} (hc : c.Accepted) {entry : RangeEntry}
    (hmem : entry ∈ c.table.entries) : c.entry? entry.bufferId = some entry := by
  have hsome : (c.table.entries.find? (·.bufferId == entry.bufferId)).isSome :=
    List.find?_isSome.mpr ⟨entry, hmem, beq_self_eq_true entry.bufferId⟩
  obtain ⟨other, hother⟩ := Option.isSome_iff_exists.mp hsome
  have hid : other.bufferId = entry.bufferId := by simpa using List.find?_some hother
  rw [Config.entry?, hother, List.inj_on_of_nodup_map hc.nodup (List.mem_of_find?_eq_some hother)
    hmem hid]

/-- The verdict to expect on an access to a buffer that its address leads to. -/
theorem Config.within_verdictOf {c : Config} {resolver : Resolver} (hc : c.Accepted)
    (hresolver : Resolver.ofConfig c = .ok resolver) (hnone : c.resolver.addresses = [])
    {addr : Address} {id : BufferId} (h : resolver.resolve addr = some id) (trace : Trace) :
    ∃ entry, c.entry? id = some entry ∧
      (c.verdictOf trace addr id).Within c.resolver.kind entry := by
  obtain ⟨entry, hmem, rfl, hfound⟩ := Resolver.exists_entry hresolver hnone h
  have hentry := c.entry?_eq_some hc hmem
  have hanswer : c.answerFor entry.bufferId = entry := by
    rw [Config.answerFor, hentry, Option.getD_some]
  have hknown : entry.isSentinel = false := beq_eq_false_iff_ne.mpr (hc.ids entry hmem)
  refine ⟨entry, hentry, ?_⟩
  rw [← c.timeless_judge hc trace addr entry.bufferId 0, hanswer, Verdict.within_timeless]
  exact Verdict.within_judge hknown hfound _ _ _ _

/-! ## The verdicts of a machine in use -/

/-- The verdicts of a machine come with the number of a core. -/
theorem Machine.Shaped.exists_core {c : Config} {resolver : Resolver} {m : Machine}
    (hs : m.Shaped c resolver) {record : UInt64 × Verdict} (h : record ∈ m.verdicts) :
    ∃ i < c.cores.toNat, record.1 = UInt64.ofNat i := by
  obtain ⟨core, hmem, hrecord⟩ := List.mem_flatMap.mp h
  obtain ⟨i, hcore⟩ := List.getElem?_of_mem hmem
  obtain ⟨v, -, rfl⟩ := List.mem_map.mp hrecord
  exact ⟨i, hs.length ▸ (List.getElem?_eq_some_iff.mp hcore).1, (hs.cores i core hcore).id⟩

namespace Drive

variable {c : Config} {m : Machine} {resolver : Resolver}

/-- All verdicts, taken or not, are those of a core. -/
theorem exists_core_of_record (hnew : Machine.new c = .ok m)
    (hresolver : Resolver.ofConfig c = .ok resolver) (hfit : c.TagsFit) (calls : List Call)
    {record : UInt64 × Verdict}
    (h : record ∈ ((start m).after calls).takenVerdicts
      ++ ((start m).after calls).machine.verdicts) :
    ∃ i < c.cores.toNat, record.2 ∈ ((start m).after calls).verdicts i := by
  have hc := (Machine.of_new hnew).1
  have htaken : ∀ record ∈ ((start m).after calls).takenVerdicts,
      ∃ i < c.cores.toNat, record.1 = UInt64.ofNat i := by
    refine (after_keeps (P := fun d => d.machine.Regular c resolver ∧
      ∀ record ∈ d.takenVerdicts, ∃ i < c.cores.toNat, record.1 = UInt64.ofNat i)
      (fun d call hd => ?_) calls
      ⟨Drive.regular hnew hresolver hfit [], fun _ hmem => nomatch hmem⟩).2
    refine ⟨by rw [machine_step]; exact hd.1.call hc hfit call, ?_⟩
    cases call with
    | push _ => exact hd.2
    | cycle => exact hd.2
    | run _ => exact hd.2
    | takeCompleted => exact hd.2
    | takeVerdicts =>
      intro record hmem
      exact (List.mem_append.mp hmem).elim (hd.2 record) hd.1.shaped.exists_core
    | reset => exact fun _ hmem => nomatch hmem
  obtain ⟨i, hi, hid⟩ := (List.mem_append.mp h).elim (htaken record)
    (Drive.regular hnew hresolver hfit calls).shaped.exists_core
  exact ⟨i, hi, List.mem_filterMap.mpr ⟨record, h, if_pos hid⟩⟩

/-- What a core says of an access, if no addresses were mapped by hand. -/
theorem within_of_mem_verdicts (hnew : Machine.new c = .ok m)
    (hresolver : Resolver.ofConfig c = .ok resolver) (hfit : c.TagsFit)
    (hnone : c.resolver.addresses = []) (calls : List Call) {i : Nat} (hi : i < c.cores.toNat)
    {v : Verdict} (hv : v ∈ ((start m).after calls).verdicts i) :
    ∃ entry, c.entry? v.bufferId = some entry ∧ v.Within c.resolver.kind entry := by
  have hc := (Machine.of_new hnew).1
  have hregular := Drive.regular hnew hresolver hfit calls
  rw [← hregular.shaped.length] at hi
  have hcore := List.getElem?_eq_getElem hi
  have hlogged := logged hnew hresolver hfit calls hcore
  rw [verdicts_eq hregular.shaped hcore] at hv
  have htimeless := List.mem_map_of_mem (f := Verdict.timeless) hv
  rw [hlogged, (hregular.shaped.cores i _ hcore).resolve] at htimeless
  obtain ⟨trace, -, hverdict⟩ := List.mem_filterMap.mp htimeless
  obtain ⟨access, -, haccess⟩ := Option.bind_eq_some_iff.mp hverdict
  obtain ⟨id, hid, heq⟩ := Option.map_eq_some_iff.mp haccess
  obtain ⟨entry, hentry, hwithin⟩ := Config.within_verdictOf hc hresolver hnone hid trace
  rw [heq, Verdict.within_timeless] at hwithin
  have hbuffer : id = v.bufferId := congrArg (·.bufferId) heq
  exact ⟨entry, hbuffer ▸ hentry, hwithin⟩

/-- **Only accesses to empty buffers are out of bounds**, if no addresses were mapped by hand:
whatever was asked of a machine, each verdict that was taken from it or is still there compares an
access with the entry of its buffer, the access is out of bounds exactly if the buffer is empty, and
only a resolver of single addresses leads to an empty buffer. -/
theorem out_of_bounds_only_empty (hnew : Machine.new c = .ok m) (hfit : c.TagsFit)
    (hnone : c.resolver.addresses = []) (calls : List Call) :
    ∀ record ∈ ((start m).after calls).takenVerdicts ++ ((start m).after calls).machine.verdicts,
      ∃ entry, c.entry? record.2.bufferId = some entry ∧
        record.2.Within c.resolver.kind entry := by
  intro record hrecord
  obtain ⟨-, resolver, hresolver, -⟩ := Machine.of_new hnew
  obtain ⟨i, hi, hmem⟩ := exists_core_of_record hnew hresolver hfit calls hrecord
  exact within_of_mem_verdicts hnew hresolver hfit hnone calls hi hmem

/-- The first address of an empty buffer is loaded. -/
theorem out_of_bounds_only_empty_load :
    ∃ m, Machine.new { table := { entries := [⟨1, 0x1000, 0, false, 0⟩] } } = .ok m ∧
      (0, ⟨13, 7, 0x1000, 1, 0x1000, 0, false, false, true, false, true, some .outOfBounds⟩)
        ∈ ((start m).after [.push (.load 7 0x1000 4), .run 100, .takeVerdicts]).takenVerdicts ∧
      ∃ entry,
        Config.entry? { table := { entries := [⟨1, 0x1000, 0, false, 0⟩] } } 1 = some entry ∧
        Verdict.Within .exact entry
          ⟨13, 7, 0x1000, 1, 0x1000, 0, false, false, true, false, true, some .outOfBounds⟩ :=
  ⟨_, rfl, by decide,
    out_of_bounds_only_empty (c := { table := { entries := [⟨1, 0x1000, 0, false, 0⟩] } }) rfl
      (by decide) rfl [.push (.load 7 0x1000 4), .run 100, .takeVerdicts]
      (0, ⟨13, 7, 0x1000, 1, 0x1000, 0, false, false, true, false, true, some .outOfBounds⟩)
      (by decide)⟩

end Drive

end BoundsCheck
