import Mathlib.Data.List.Induction
import BoundsCheck.Proofs.Resolving

/-!
# Which buffer counts

Addresses are mapped and buffers are allocated one after the other, and both may overlap what was
there before.  Whatever is mapped or allocated last counts, and a mapped address counts more than
any allocated buffer.  So all of it can be read off the history by a plain scan, in which each entry
overwrites what was found before.

* `lastWritten` — the scan.
* `Config.lastWriter` — what it finds in a configuration.
* `Allocations.after` — mappings and allocations in any order, `Allocations.lastWriter` what the
  scan finds in them.
* `AllocationMap.WellFormed` — the pieces that are left stand in order, none is empty and no two of
  them overlap or could be joined.
* `Allocations.last_writer_counts` — an address leads to what the scan finds.
-/

set_option autoImplicit false

namespace BoundsCheck

/-! ## Scanning a history -/

/-- What is found at the end of a history, each entry overwriting what was found before. -/
def lastWritten {ε α : Type} (writes : ε → Option α) (history : List ε) : Option α :=
  history.foldl (fun found entry => (writes entry).or found) none

variable {ε ε' α : Type} {writes : ε → Option α}

@[simp] theorem lastWritten_nil : lastWritten writes [] = none := rfl

theorem lastWritten_concat (history : List ε) (entry : ε) :
    lastWritten writes (history ++ [entry]) = (writes entry).or (lastWritten writes history) := by
  simp [lastWritten]

theorem lastWritten_append (history others : List ε) :
    lastWritten writes (history ++ others)
      = (lastWritten writes others).or (lastWritten writes history) := by
  induction others using List.reverseRecOn with
  | nil => simp
  | append_singleton others entry ih =>
    rw [← List.append_assoc, lastWritten_concat, lastWritten_concat, ih, Option.or_assoc]

theorem lastWritten_map (f : ε' → ε) (history : List ε') :
    lastWritten writes (history.map f) = lastWritten (fun entry => writes (f entry)) history := by
  simp [lastWritten, List.foldl_map]

/-- The last entry that writes is the first one from behind. -/
theorem find?_reverse_eq_lastWritten {p : ε → Bool} {value : ε → α}
    (hwrites : ∀ entry, writes entry = if p entry then some (value entry) else none)
    (history : List ε) :
    (history.reverse.find? p).map value = lastWritten writes history := by
  induction history using List.reverseRecOn with
  | nil => rfl
  | append_singleton history entry ih =>
    rw [lastWritten_concat, ← ih, hwrites, List.reverse_append, List.reverse_singleton,
      List.singleton_append, List.find?_cons]
    by_cases hp : p entry = true
    · simp [hp]
    · simp [hp]

/-! ## What counts for an address -/

variable {addr : Address}

/-- The buffer that a mapping leads the address to. -/
def AddressMapping.leadsTo? (addr : Address) (m : AddressMapping) : Option BufferId :=
  if m.addr = addr then some m.bufferId else none

/-- The buffer whose first address this is. -/
def RangeEntry.startsAt? (addr : Address) (e : RangeEntry) : Option BufferId :=
  if e.base = addr then some e.bufferId else none

/-- The buffer that is allocated at the address. -/
def RangeEntry.spans? (addr : Address) (e : RangeEntry) : Option BufferId :=
  if e.size ≠ 0 ∧ e.base ≤ addr ∧ addr < e.stop then some e.bufferId else none

/-- There is something to allocate for an entry, unless it is empty and left out. -/
def RangeEntry.Allocatable (e : RangeEntry) : Prop := e.size ≠ 0 → e.base < e.stop

instance (e : RangeEntry) : Decidable e.Allocatable :=
  inferInstanceAs (Decidable (e.size ≠ 0 → e.base < e.stop))

/-- The buffer an address leads to: the last one it is mapped to or else, depending on the kind of
the resolver, the last one that starts there or the last one that is allocated there. -/
def Config.lastWriter (c : Config) (addr : Address) : Option BufferId :=
  (lastWritten (AddressMapping.leadsTo? addr) c.resolver.addresses).or <|
    match c.resolver.kind with
    | .exact => lastWritten (RangeEntry.startsAt? addr) c.table.entries
    | .range => lastWritten (RangeEntry.spans? addr) c.table.entries

/-- An entry spans the addresses that are allocated for it. -/
theorem RangeEntry.spans?_eq (e : RangeEntry) (addr : Address) :
    e.spans? addr = if e.covers addr then some e.bufferId else none := by
  have hiff : (e.size ≠ 0 ∧ e.base ≤ addr ∧ addr < e.stop) ↔ e.covers addr = true := by
    constructor
    · rintro ⟨-, hle, hlt⟩
      simp [covers, hle, hlt]
    · intro hcovers
      have hsize := size_ne_zero_of_contains (covers_iff.mp hcovers).1
      simpa [covers, hsize] using hcovers
  simp only [spans?, hiff]

theorem Mappings.resolve_insert (m : Mappings) (addr other : Address) (id : BufferId) :
    (m.insert other id).resolve addr
      = (AddressMapping.leadsTo? addr ⟨other, id⟩).or (m.resolve addr) := by
  by_cases h : other = addr
  · simp [resolve, insert, AddressMapping.leadsTo?, h]
  · simp [resolve, insert, AddressMapping.leadsTo?, h]

theorem Mappings.resolve_ofList (mappings : List AddressMapping) (addr : Address) :
    (ofList mappings).resolve addr = lastWritten (AddressMapping.leadsTo? addr) mappings :=
  find?_reverse_eq_lastWritten (fun m => by simp [AddressMapping.leadsTo?]) mappings

theorem Allocations.resolve_ranges_eq_lastWritten {entries : List RangeEntry} {a : Allocations}
    (h : insertAll {} entries = .ok a) (addr : Address) :
    a.ranges.resolve addr = lastWritten (RangeEntry.spans? addr) entries := by
  rw [resolve_ranges_insertAll h, ← find?_reverse_eq_lastWritten (RangeEntry.spans?_eq · addr)]
  exact Option.or_none

/-- The resolver of a configuration leads to what a scan of the configuration finds. -/
theorem Resolver.resolve_ofConfig {c : Config}
    (h : c.resolver.kind = .range → ∀ e ∈ c.table.entries, e.Allocatable) :
    ∃ resolver, ofConfig c = .ok resolver ∧ ∀ addr, resolver.resolve addr = c.lastWriter addr := by
  cases hkind : c.resolver.kind with
  | exact =>
    refine ⟨_, by rw [ofConfig, hkind], fun addr => ?_⟩
    simp only [resolve, Mappings.resolve_ofList, lastWritten_append, lastWritten_map,
      Config.lastWriter, hkind]
    rfl
  | range =>
    obtain ⟨a, hinsert⟩ := Allocations.exists_insertAll (a := {}) fun e hmem hsize =>
      (RangeEntry.base_lt_stop_iff.mp (h hkind e hmem hsize)).2
    refine ⟨.ranges { a with exact := .ofList c.resolver.addresses }, ?_, fun addr => ?_⟩
    · rw [ofConfig, hkind, hinsert]
      rfl
    · simp only [resolve, Allocations.resolve, Mappings.resolve_ofList,
        Allocations.resolve_ranges_eq_lastWritten hinsert, Config.lastWriter, hkind]

/-! ## The pieces that are left -/

theorem Address.toNat_min (a b : Address) : (min a b).toNat = min a.toNat b.toNat := by
  show (if a ≤ b then a else b).toNat = _
  split
  · rename_i h
    rw [UInt64.le_iff_toNat_le] at h
    omega
  · rename_i h
    rw [UInt64.le_iff_toNat_le] at h
    omega

theorem Address.toNat_max (a b : Address) : (max a b).toNat = max a.toNat b.toNat := by
  show (if a ≤ b then b else a).toNat = _
  split
  · rename_i h
    rw [UInt64.le_iff_toNat_le] at h
    omega
  · rename_i h
    rw [UInt64.le_iff_toNat_le] at h
    omega

namespace Piece

/-- The piece is behind another one, and if it goes on where that one ends, it does so with another
allocation. -/
structure Follows (q p : Piece) : Prop where
  /-- It starts where the other one ends or later. -/
  le : p.stop ≤ q.start
  /-- The two could not be joined. -/
  differs : p.stop = q.start → p.allocation ≠ q.allocation

/-- The piece is one of an allocation. -/
structure Sound (p : Piece) : Prop where
  /-- It has an address. -/
  lt : p.start < p.stop
  /-- It starts with the allocation or later. -/
  start_le : p.allocation.start ≤ p.start
  /-- It ends with the allocation or before. -/
  stop_le : p.stop ≤ p.allocation.stop

variable {p q p' q' : Piece} {bound : Address}

theorem before?_eq_some (h : p.before? bound = some q) :
    p.start < bound ∧ q = { p with stop := min p.stop bound } := by
  rw [before?, Option.ite_none_right_eq_some, Option.some.injEq] at h
  exact ⟨h.1, h.2.symm⟩

theorem after?_eq_some (h : p.after? bound = some q) :
    bound < p.stop ∧ q = { p with start := max p.start bound } := by
  rw [after?, Option.ite_none_right_eq_some, Option.some.injEq] at h
  exact ⟨h.1, h.2.symm⟩

theorem Sound.before? (hp : p.Sound) (h : p.before? bound = some q) : q.Sound := by
  obtain ⟨hbound, rfl⟩ := before?_eq_some h
  have hlt := hp.lt
  have hstop := hp.stop_le
  refine ⟨?_, hp.start_le, ?_⟩
  · simp only [UInt64.lt_iff_toNat_lt, Address.toNat_min] at *
    omega
  · simp only [UInt64.le_iff_toNat_le, Address.toNat_min] at *
    omega

theorem Sound.after? (hp : p.Sound) (h : p.after? bound = some q) : q.Sound := by
  obtain ⟨hbound, rfl⟩ := after?_eq_some h
  have hlt := hp.lt
  have hstart := hp.start_le
  refine ⟨?_, ?_, hp.stop_le⟩
  · simp only [UInt64.lt_iff_toNat_lt, Address.toNat_max] at *
    omega
  · simp only [UInt64.le_iff_toNat_le, Address.toNat_max] at *
    omega

/-- What is left of two pieces before a bound stands as they did. -/
theorem Follows.before? (h : q.Follows p) (hp : p.before? bound = some p')
    (hq : q.before? bound = some q') : q'.Follows p' := by
  obtain ⟨-, rfl⟩ := before?_eq_some hp
  obtain ⟨hbound, rfl⟩ := before?_eq_some hq
  -- the second piece starts before the bound, so nothing is cut from the first one
  have hstop : min p.stop bound = p.stop := by
    have hle := h.le
    rw [UInt64.le_iff_toNat_le] at hle
    rw [UInt64.lt_iff_toNat_lt] at hbound
    rw [← UInt64.toNat_inj, Address.toNat_min]
    omega
  rw [hstop]
  exact ⟨h.le, h.differs⟩

/-- What is left of two pieces behind a bound stands as they did. -/
theorem Follows.after? (h : q.Follows p) (hp : p.after? bound = some p')
    (hq : q.after? bound = some q') : q'.Follows p' := by
  obtain ⟨hbound, rfl⟩ := after?_eq_some hp
  obtain ⟨-, rfl⟩ := after?_eq_some hq
  have hstart : max q.start bound = q.start := by
    have hle := h.le
    rw [UInt64.le_iff_toNat_le] at hle
    rw [UInt64.lt_iff_toNat_lt] at hbound
    rw [← UInt64.toNat_inj, Address.toNat_max]
    omega
  rw [hstart]
  exact ⟨h.le, h.differs⟩

/-- What is left of an older piece before a new allocation is not part of it. -/
theorem Sound.follows_before? {a : Allocation} (hp : p.Sound) (h : p.before? a.start = some q) :
    (⟨a.start, a.stop, a⟩ : Piece).Follows q := by
  obtain ⟨hbound, rfl⟩ := before?_eq_some h
  refine ⟨?_, fun _ heq => ?_⟩
  · simp only [UInt64.le_iff_toNat_le, Address.toNat_min]
    omega
  · have hstart : a.start ≤ p.start := (show p.allocation = a from heq) ▸ hp.start_le
    exact UInt64.not_lt.mpr hstart hbound

/-- What is left of an older piece behind a new allocation is not part of it. -/
theorem Sound.after?_follows {a : Allocation} (hp : p.Sound) (h : p.after? a.stop = some q) :
    q.Follows ⟨a.start, a.stop, a⟩ := by
  obtain ⟨hbound, rfl⟩ := after?_eq_some h
  refine ⟨?_, fun _ heq => ?_⟩
  · simp only [UInt64.le_iff_toNat_le, Address.toNat_max]
    omega
  · have hstop : p.stop ≤ a.stop := (show a = p.allocation from heq) ▸ hp.stop_le
    exact UInt64.not_lt.mpr hstop hbound

/-- Between what is left before and behind a new allocation, there is that allocation. -/
theorem after?_follows_before? {a : Allocation} (hlt : a.start < a.stop)
    (hp : p.before? a.start = some p') (hq : q.after? a.stop = some q') : q'.Follows p' := by
  obtain ⟨-, rfl⟩ := before?_eq_some hp
  obtain ⟨-, rfl⟩ := after?_eq_some hq
  have hgap : (min p.stop a.start).toNat < (max q.start a.stop).toNat := by
    rw [UInt64.lt_iff_toNat_lt] at hlt
    rw [Address.toNat_min, Address.toNat_max]
    omega
  refine ⟨UInt64.le_iff_toNat_le.mpr (Nat.le_of_lt hgap), fun heq => absurd hgap ?_⟩
  rw [show min p.stop a.start = max q.start a.stop from heq]
  exact Nat.lt_irrefl _

end Piece

namespace AllocationMap

/-- The pieces of an allocation map are in order. -/
structure WellFormed (m : AllocationMap) : Prop where
  /-- Each is a piece of its allocation and has an address. -/
  sound : ∀ p ∈ m.pieces, p.Sound
  /-- They stand in the order of their addresses, do not overlap, and no two could be joined. -/
  sorted : m.pieces.Pairwise fun p q => q.Follows p

variable {m m' : AllocationMap} {a : Allocation}

/-- **A new allocation keeps the pieces in order.** -/
theorem WellFormed.allocate (hm : m.WellFormed) (h : m.allocate a = .ok m') : m'.WellFormed := by
  rw [AllocationMap.allocate] at h
  split at h
  · rename_i hlt
    cases h
    constructor
    · intro p hp
      rw [List.mem_append, List.mem_append, List.mem_singleton, List.mem_filterMap,
        List.mem_filterMap] at hp
      rcases hp with (⟨old, hold, hcut⟩ | rfl) | ⟨old, hold, hcut⟩
      · exact (hm.sound old hold).before? hcut
      · exact ⟨hlt, UInt64.le_refl _, UInt64.le_refl _⟩
      · exact (hm.sound old hold).after? hcut
    · rw [List.pairwise_append, List.pairwise_append]
      refine ⟨⟨?_, List.pairwise_singleton _ _, ?_⟩, ?_, ?_⟩
      · exact hm.sorted.filterMap _ fun p q hpq p' hp q' hq => hpq.before? hp hq
      · intro p hp q hq
        obtain ⟨old, hold, hcut⟩ := List.mem_filterMap.mp hp
        rw [List.mem_singleton.mp hq]
        exact (hm.sound old hold).follows_before? hcut
      · exact hm.sorted.filterMap _ fun p q hpq p' hp q' hq => hpq.after? hp hq
      · intro p hp q hq
        obtain ⟨behind, hbehind, hcut⟩ := List.mem_filterMap.mp hq
        rw [List.mem_append, List.mem_singleton, List.mem_filterMap] at hp
        rcases hp with ⟨old, -, hcut'⟩ | rfl
        · exact Piece.after?_follows_before? hlt hcut' hcut
        · exact (hm.sound behind hbehind).after?_follows hcut
  · cases h

end AllocationMap

/-! ## Mappings and allocations in any order -/

namespace Allocations

/-- A call on mapped addresses and allocated buffers. -/
inductive Call
  | insert (entry : RangeEntry)
  | insertExact (addr : Address) (id : BufferId)
deriving DecidableEq, Repr

/-- What a call makes of them. -/
def call (a : Allocations) : Call → Except Fault Allocations
  | .insert entry => a.insert entry
  | .insertExact addr id => .ok (a.insertExact addr id)

/-- What several calls make of them, one after the other. -/
def after (calls : List Call) (a : Allocations) : Except Fault Allocations := calls.foldlM call a

/-- The buffer that a call maps the address to. -/
def Call.maps? (addr : Address) : Call → Option BufferId
  | .insert _ => none
  | .insertExact other id => if other = addr then some id else none

/-- The buffer that a call allocates at the address. -/
def Call.spans? (addr : Address) : Call → Option BufferId
  | .insert entry => entry.spans? addr
  | .insertExact _ _ => none

/-- The buffer an address leads to after some calls: the last one it was mapped to, or else the last
one that was allocated there. -/
def lastWriter (calls : List Call) (addr : Address) : Option BufferId :=
  (lastWritten (Call.maps? addr) calls).or (lastWritten (Call.spans? addr) calls)

variable {a : Allocations} {calls : List Call} {c : Call}

theorem after_concat (calls : List Call) (c : Call) (a : Allocations) :
    a.after (calls ++ [c]) = a.after calls >>= fun a => a.call c := by
  simp [after, List.foldlM_append]

/-- What is known of mapped addresses and allocated buffers after some calls. -/
structure Regular (calls : List Call) (a : Allocations) : Prop where
  /-- The pieces that are left of the allocations are in order. -/
  ranges : a.ranges.WellFormed
  /-- A mapped address leads to the buffer it was mapped to last. -/
  resolve_exact : ∀ addr, a.exact.resolve addr = lastWritten (Call.maps? addr) calls
  /-- An allocated address leads to the buffer it was allocated to last. -/
  resolve_ranges : ∀ addr, a.ranges.resolve addr = lastWritten (Call.spans? addr) calls

theorem wellFormed_insert {a' : Allocations} {entry : RangeEntry} (ha : a.ranges.WellFormed)
    (h : a.insert entry = .ok a') : a'.ranges.WellFormed := by
  rw [Allocations.insert] at h
  split at h
  · cases h
    exact ha
  · obtain ⟨ranges, hranges, rfl⟩ := Except.map_eq_ok.mp h
    exact ha.allocate hranges

/-- **A call leads addresses to where the scan of all calls leads them.** -/
theorem Regular.call (ha : a.Regular calls) (h : ∀ entry, c = .insert entry → entry.Allocatable) :
    ∃ a', a.call c = .ok a' ∧ a'.Regular (calls ++ [c]) := by
  cases c with
  | insert entry =>
    cases hinsert : a.insert entry with
    | error fault =>
      obtain ⟨⟨hsize, hlast⟩, -⟩ := insert_eq_error_iff.mp hinsert
      exact absurd hlast (RangeEntry.base_lt_stop_iff.mp (h entry rfl hsize)).2
    | ok a' =>
      refine ⟨a', hinsert, wellFormed_insert ha.ranges hinsert, fun addr => ?_, fun addr => ?_⟩
      · rw [lastWritten_concat, exact_insert hinsert, ha.resolve_exact]
        rfl
      · rw [lastWritten_concat, resolve_ranges_insert hinsert, ha.resolve_ranges]
        show _ = (entry.spans? addr).or _
        rw [RangeEntry.spans?_eq]
        split <;> rfl
  | insertExact addr id =>
    refine ⟨_, rfl, ha.ranges, fun other => ?_, fun other => ?_⟩
    · rw [lastWritten_concat, ← ha.resolve_exact]
      exact Mappings.resolve_insert a.exact other addr id
    · rw [lastWritten_concat, ← ha.resolve_ranges]
      rfl

/-- Calls that allocate something go through. -/
theorem regular_after (h : ∀ entry, .insert entry ∈ calls → entry.Allocatable) :
    ∃ a, after calls {} = .ok a ∧ a.Regular calls := by
  induction calls using List.reverseRecOn with
  | nil =>
    refine ⟨{}, rfl, ⟨?_, ?_⟩, fun addr => rfl, fun addr => rfl⟩
    · simp
    · exact List.Pairwise.nil
  | append_singleton calls c ih =>
    obtain ⟨a, hafter, ha⟩ := ih fun entry hmem => h entry (List.mem_append_left _ hmem)
    obtain ⟨a', hcall, ha'⟩ := ha.call (c := c) fun entry heq => h entry (by simp [heq])
    refine ⟨a', ?_, ha'⟩
    rw [after_concat, hafter]
    exact hcall

/-- **The last writer counts.**  Unless a buffer is to be allocated that has no address to allocate,
the resolver of a configuration can be made, and leads each address to what a scan of the
configuration finds.  The same holds of mappings and allocations in any order, and what is left of
the allocations always stands in order. -/
theorem last_writer_counts :
    (∀ c : Config, (c.resolver.kind = .range → ∀ e ∈ c.table.entries, e.Allocatable) →
      ∃ resolver, Resolver.ofConfig c = .ok resolver ∧
        ∀ addr, resolver.resolve addr = c.lastWriter addr) ∧
    ∀ calls : List Call, (∀ entry, .insert entry ∈ calls → entry.Allocatable) →
      ∃ a, after calls {} = .ok a ∧ (∀ addr, a.resolve addr = lastWriter calls addr) ∧
        (∀ p ∈ a.ranges.pieces, p.start < p.stop) ∧
        a.ranges.pieces.Pairwise fun p q => p.stop ≤ q.start ∧
          (p.stop = q.start → p.allocation ≠ q.allocation) := by
  refine ⟨fun c h => Resolver.resolve_ofConfig h, fun calls h => ?_⟩
  obtain ⟨a, hafter, ha⟩ := regular_after h
  refine ⟨a, hafter, fun addr => ?_, fun p hp => (ha.ranges.sound p hp).lt, ?_⟩
  · rw [resolve, ha.resolve_exact, ha.resolve_ranges, lastWriter]
  · exact ha.ranges.sorted.imp fun hfollows => ⟨hfollows.le, hfollows.differs⟩

/-- The second buffer is allocated in the middle of the first one, the third one is empty, and an
address of the second is mapped twice.  Afterwards a fourth buffer takes what is left in front. -/
theorem last_writer_counts_overlapping :
    let first : RangeEntry := ⟨1, 0x1000, 0x100, false, 0⟩
    let second : RangeEntry := ⟨2, 0x1040, 0x20, false, 0⟩
    let third : RangeEntry := ⟨3, 0x1080, 0, false, 0⟩
    let fourth : RangeEntry := ⟨4, 0x0F00, 0x140, true, 0⟩
    let c : Config :=
      { table := { entries := [first, second, third] },
        resolver := { kind := .range, addresses := [⟨0x1050, 9⟩, ⟨0x1050, 8⟩] } }
    let calls : List Call :=
      [.insert first, .insertExact 0x1050 9, .insert second, .insert third, .insertExact 0x1050 8,
        .insert fourth]
    (∃ resolver, Resolver.ofConfig c = .ok resolver ∧ resolver.resolve 0x1000 = some 1 ∧
      resolver.resolve 0x1040 = some 2 ∧ resolver.resolve 0x1050 = some 8 ∧
      resolver.resolve 0x1080 = some 1 ∧ resolver.resolve 0x1100 = none) ∧
    ∃ a, after calls {} = .ok a ∧ a.resolve 0x1000 = some 4 ∧ a.resolve 0x1050 = some 8 ∧
      a.resolve 0x1060 = some 1 ∧
      a.ranges.pieces.map (fun p => (p.start, p.stop)) =
        [(0x0F00, 0x1040), (0x1040, 0x1060), (0x1060, 0x1100)] := by
  intro first second third fourth c calls
  constructor
  · obtain ⟨resolver, hresolver, hresolve⟩ := last_writer_counts.1 c (by decide)
    refine ⟨resolver, hresolver, ?_, ?_, ?_, ?_, ?_⟩ <;>
      exact (hresolve _).trans (by decide)
  · have hallocatable : ∀ entry, .insert entry ∈ calls → entry.Allocatable := by
      intro entry hmem
      simp only [calls, List.mem_cons, Call.insert.injEq, reduceCtorEq, List.not_mem_nil, false_or,
        or_false] at hmem
      rcases hmem with rfl | rfl | rfl | rfl <;> decide
    obtain ⟨a, hafter, hresolve, -⟩ := last_writer_counts.2 calls hallocatable
    refine ⟨a, hafter, (hresolve _).trans (by decide), (hresolve _).trans (by decide),
      (hresolve _).trans (by decide), ?_⟩
    cases hafter
    decide

end Allocations

end BoundsCheck
