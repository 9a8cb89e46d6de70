import Mathlib.Data.List.Pairwise
import BoundsCheck.Resolver
import BoundsCheck.Proofs.Build

/-!
# Addresses and buffers

Two notions of the addresses of a buffer meet here.  A range entry contains the addresses from its
base on, as many as its size says, and is compared by a subtraction.  What is allocated for it ends
before an address, and there is none behind the last one.  So the last address is never allocated,
whatever the entry contains, and a buffer that starts there cannot be allocated at all.  Everywhere
else the two agree.

* `RangeEntry.covers` — the addresses that are allocated for an entry.
* `RangeEntry.covers_iff` — those it contains, but for the last address.
* `AllocationMap.resolve_allocate` — a new allocation counts where it is, older ones elsewhere.
* `Allocations.resolve_ranges_insertAll` — of several buffers the last one that has an address counts.
* `Allocations.resolves_but_last` — with disjoint buffers an address leads to the one that has it.
* `Resolver.exists_entry` — an address that leads to a buffer is one of its own.
-/

set_option autoImplicit false

namespace BoundsCheck

/-! ## Addresses in numbers -/

/-- The last address there is. -/
def Address.last : Address := 0xFFFFFFFFFFFFFFFF

theorem Address.toNat_last : Address.last.toNat = 2 ^ 64 - 1 := rfl

theorem Address.toNat_advance (addr : Address) (size : UInt64) :
    (Address.advance addr size).toNat = min (addr.toNat + size.toNat) (2 ^ 64 - 1) := by
  have hlt : addr.toNat + size.toNat < UInt64.size ↔ addr.toNat + size.toNat < 2 ^ 64 := Iff.rfl
  rw [Address.advance]
  split
  · rename_i h
    rw [hlt] at h
    rw [UInt64.toNat_add, Nat.mod_eq_of_lt h]
    omega
  · rename_i h
    rw [hlt] at h
    have hlast : (0xFFFFFFFFFFFFFFFF : UInt64).toNat = 2 ^ 64 - 1 := rfl
    rw [hlast]
    omega

theorem Address.lt_min_iff {addr a b : Address} : addr < min a b ↔ addr < a ∧ addr < b := by
  show addr < (if a ≤ b then a else b) ↔ _
  split
  · rename_i h
    exact ⟨fun hlt => ⟨hlt, UInt64.lt_of_lt_of_le hlt h⟩, fun hlt => hlt.1⟩
  · rename_i h
    rw [UInt64.not_le] at h
    exact ⟨fun hlt => ⟨UInt64.lt_trans hlt h, hlt⟩, fun hlt => hlt.2⟩

theorem Address.max_le_iff {addr a b : Address} : max a b ≤ addr ↔ a ≤ addr ∧ b ≤ addr := by
  show (if a ≤ b then b else a) ≤ addr ↔ _
  split
  · rename_i h
    exact ⟨fun hle => ⟨UInt64.le_trans h hle, hle⟩, fun hle => hle.2⟩
  · rename_i h
    rw [UInt64.not_le] at h
    exact ⟨fun hle => ⟨hle, UInt64.le_trans (UInt64.le_of_lt h) hle⟩, fun hle => hle.1⟩

namespace RangeEntry

theorem contains_eq (e : RangeEntry) (addr : Address) :
    e.contains addr = decide (e.base.toNat ≤ addr.toNat ∧
      addr.toNat < e.base.toNat + e.size.toNat) := by
  rw [RangeEntry.contains, Bool.eq_iff_iff, Bool.and_eq_true, decide_eq_true_eq,
    decide_eq_true_eq, decide_eq_true_eq, UInt64.le_iff_toNat_le, UInt64.lt_iff_toNat_lt]
  refine and_congr_right fun hle => ?_
  rw [UInt64.toNat_sub_of_le _ _ hle]
  omega

/-- The address is one of those that are allocated for the entry. -/
def covers (e : RangeEntry) (addr : Address) : Bool := e.base ≤ addr && addr < e.stop

/-- **All addresses of an entry are allocated for it, but for the last address.** -/
theorem covers_iff {e : RangeEntry} {addr : Address} :
    e.covers addr = true ↔ e.contains addr = true ∧ addr ≠ Address.last := by
  have hmax := addr.toNat_lt
  rw [covers, contains_eq, Bool.and_eq_true, decide_eq_true_eq, decide_eq_true_eq,
    decide_eq_true_eq, UInt64.le_iff_toNat_le, UInt64.lt_iff_toNat_lt, stop, Address.toNat_advance,
    Ne, ← UInt64.toNat_inj, Address.toNat_last]
  omega

theorem covers_of_find? {entries : List RangeEntry} {addr : Address} {e : RangeEntry}
    (h : entries.reverse.find? (·.covers addr) = some e) : e ∈ entries ∧ e.covers addr = true :=
  ⟨List.mem_reverse.mp (List.mem_of_find?_eq_some h), by simpa using List.find?_some h⟩

/-- There is something to allocate for an entry, unless it is empty or starts at the last
address. -/
theorem base_lt_stop_iff {e : RangeEntry} :
    e.base < e.stop ↔ e.size ≠ 0 ∧ e.base ≠ Address.last := by
  have hmax := e.base.toNat_lt
  rw [UInt64.lt_iff_toNat_lt, stop, Address.toNat_advance, Ne, Ne, ← UInt64.toNat_inj,
    ← UInt64.toNat_inj, Address.toNat_last, UInt64.toNat_zero]
  omega

/-- An entry contains its first address, unless it is empty. -/
theorem contains_base_iff {e : RangeEntry} : e.contains e.base = true ↔ e.size ≠ 0 := by
  rw [contains_eq, decide_eq_true_eq, Ne, ← UInt64.toNat_inj, UInt64.toNat_zero]
  omega

theorem size_ne_zero_of_contains {e : RangeEntry} {addr : Address} (h : e.contains addr = true) :
    e.size ≠ 0 := by
  rw [contains_eq, decide_eq_true_eq] at h
  rw [Ne, ← UInt64.toNat_inj, UInt64.toNat_zero]
  omega

/-- No address belongs to both entries. -/
def Apart (e e' : RangeEntry) : Prop :=
  ∀ addr, ¬ (e.contains addr = true ∧ e'.contains addr = true)

/-- An entry that ends before another one starts is apart from it. -/
theorem apart_of_le {e e' : RangeEntry} (h : e.base.toNat + e.size.toNat ≤ e'.base.toNat) :
    Apart e e' := by
  intro addr ⟨hhas, hhas'⟩
  rw [contains_eq, decide_eq_true_eq] at hhas hhas'
  omega

instance : Std.Symm Apart := ⟨fun _ _ hno addr hboth => hno addr hboth.symm⟩

/-- Of entries that are apart only one has an address. -/
theorem eq_of_contains {entries : List RangeEntry} (hapart : entries.Pairwise Apart)
    {e e' : RangeEntry} (hmem : e ∈ entries) (hmem' : e' ∈ entries) {addr : Address}
    (h : e.contains addr = true) (h' : e'.contains addr = true) : e = e' := by
  by_contra hne
  exact hapart.forall hmem hmem' hne addr ⟨h, h'⟩

end RangeEntry

/-! ## Allocation maps -/

namespace Piece

/-- What a piece has before a bound are its addresses that lie there. -/
theorem any_before? (bound addr : Address) (p : Piece) :
    (p.before? bound).any (·.contains addr) = (decide (addr < bound) && p.contains addr) := by
  rw [before?, Bool.eq_iff_iff]
  split
  · simp only [Option.any_some, contains, Bool.and_eq_true, decide_eq_true_eq, Address.lt_min_iff]
    exact ⟨fun ⟨hle, hlt, hbefore⟩ => ⟨hbefore, hle, hlt⟩,
      fun ⟨hbefore, hle, hlt⟩ => ⟨hle, hlt, hbefore⟩⟩
  · rename_i h
    simp only [Option.any_none, contains, Bool.and_eq_true, decide_eq_true_eq, Bool.false_eq_true,
      false_iff]
    exact fun ⟨hbefore, hle, _⟩ => h (UInt64.lt_of_le_of_lt hle hbefore)

/-- What a piece has from a bound on are its addresses that lie there. -/
theorem any_after? (bound addr : Address) (p : Piece) :
    (p.after? bound).any (·.contains addr) = (decide (bound ≤ addr) && p.contains addr) := by
  rw [after?, Bool.eq_iff_iff]
  split
  · simp only [Option.any_some, contains, Bool.and_eq_true, decide_eq_true_eq, Address.max_le_iff]
    exact ⟨fun ⟨⟨hle, hafter⟩, hlt⟩ => ⟨hafter, hle, hlt⟩,
      fun ⟨hafter, hle, hlt⟩ => ⟨⟨hle, hafter⟩, hlt⟩⟩
  · rename_i h
    simp only [Option.any_none, contains, Bool.and_eq_true, decide_eq_true_eq, Bool.false_eq_true,
      false_iff]
    exact fun ⟨hafter, _, hlt⟩ => h (UInt64.lt_of_le_of_lt hafter hlt)

theorem allocation_of_before? {bound : Address} {p q : Piece} (h : p.before? bound = some q) :
    q.allocation = p.allocation := by
  rw [before?, Option.ite_none_right_eq_some, Option.some.injEq] at h
  rw [← h.2]

theorem allocation_of_after? {bound : Address} {p q : Piece} (h : p.after? bound = some q) :
    q.allocation = p.allocation := by
  rw [after?, Option.ite_none_right_eq_some, Option.some.injEq] at h
  rw [← h.2]

end Piece

namespace AllocationMap

variable {m m' : AllocationMap} {a : Allocation} {addr : Address}

theorem resolve_append (pieces others : List Piece) (addr : Address) :
    (⟨pieces ++ others⟩ : AllocationMap).resolve addr
      = ((⟨pieces⟩ : AllocationMap).resolve addr).or ((⟨others⟩ : AllocationMap).resolve addr) := by
  rw [resolve, List.find?_append, Option.map_or]
  rfl

/-- An address on the side of the pieces that is kept leads where it did, and the others lead
nowhere. -/
theorem resolve_filterMap {cut : Piece → Option Piece} {kept : Bool}
    (hany : ∀ p, (cut p).any (·.contains addr) = (kept && p.contains addr))
    (hsame : ∀ {p q : Piece}, cut p = some q → q.allocation = p.allocation) (m : AllocationMap) :
    (⟨m.pieces.filterMap cut⟩ : AllocationMap).resolve addr
      = if kept then m.resolve addr else none := by
  cases kept with
  | false =>
    have hnone : m.pieces.find? (fun _ => false) = none :=
      List.find?_eq_none.mpr fun _ _ => Bool.false_ne_true
    simp only [resolve, List.find?_filterMap, hany, Bool.false_and, hnone, Option.bind_none,
      Option.map_none, Bool.false_eq_true, if_false]
  | true =>
    simp only [resolve, List.find?_filterMap, hany, Bool.true_and, if_true]
    cases hfind : m.pieces.find? fun p : Piece => p.contains addr with
    | none => rfl
    | some p =>
      have hcontains : p.contains addr = true := by simpa using List.find?_some hfind
      obtain ⟨q, hq, -⟩ := (Option.any_eq_true _ _).mp ((hany p).trans hcontains)
      rw [Option.bind_some, hq, Option.map_some, Option.map_some, hsame hq]

theorem resolve_singleton (a : Allocation) (addr : Address) :
    (⟨[⟨a.start, a.stop, a⟩]⟩ : AllocationMap).resolve addr
      = if a.start ≤ addr ∧ addr < a.stop then some a.bufferId else none := by
  simp only [resolve, List.find?_singleton, Piece.contains, Bool.and_eq_true, decide_eq_true_eq]
  split
  · rfl
  · rfl

/-- **A new allocation counts where it is, and elsewhere nothing changes.** -/
theorem resolve_allocate (h : m.allocate a = .ok m') (addr : Address) :
    m'.resolve addr = if a.start ≤ addr ∧ addr < a.stop then some a.bufferId
      else m.resolve addr := by
  rw [allocate] at h
  split at h
  · rename_i hlt
    cases h
    rw [resolve_append, resolve_append, resolve_singleton,
      resolve_filterMap (Piece.any_before? a.start addr) Piece.allocation_of_before?,
      resolve_filterMap (Piece.any_after? a.stop addr) Piece.allocation_of_after?]
    simp only [decide_eq_true_eq]
    by_cases hin : a.start ≤ addr ∧ addr < a.stop
    · rw [if_neg (UInt64.not_lt.mpr hin.1), if_pos hin, if_pos hin, Option.none_or, Option.some_or]
    · rw [if_neg hin, if_neg hin, Option.or_none]
      by_cases hbefore : addr < a.start
      · have hfront : ¬ a.stop ≤ addr := UInt64.not_le.mpr (UInt64.lt_trans hbefore hlt)
        rw [if_pos hbefore, if_neg hfront, Option.or_none]
      · have hbehind : a.stop ≤ addr :=
          UInt64.not_lt.mp fun h => hin ⟨UInt64.not_lt.mp hbefore, h⟩
        rw [if_neg hbefore, if_pos hbehind, Option.none_or]
  · cases h

theorem allocate_eq_error_iff {fault : Fault} :
    m.allocate a = .error fault ↔ ¬ a.start < a.stop ∧ fault = .emptyRange := by
  rw [allocate]
  split
  · rename_i h
    exact iff_of_false (fun heq => nomatch heq) fun hnot => hnot.1 h
  · rename_i h
    rw [Except.error.injEq, eq_comm]
    exact (and_iff_right h).symm

end AllocationMap

/-! ## Buffers that are allocated one after the other -/

namespace Allocations

variable {a a' : Allocations} {entry : RangeEntry} {entries : List RangeEntry} {fault : Fault}
  {addr : Address}

theorem insert_eq_error_iff :
    a.insert entry = .error fault ↔
      (entry.size ≠ 0 ∧ entry.base = Address.last) ∧ fault = .emptyRange := by
  rw [insert]
  split
  · rename_i hempty
    exact iff_of_false (fun heq => nomatch heq) fun h => h.1.1 hempty
  · rename_i hsize
    rw [Except.map_eq_error, AllocationMap.allocate_eq_error_iff]
    show ¬ entry.base < entry.stop ∧ _ ↔ _
    rw [RangeEntry.base_lt_stop_iff, not_and_not_right, and_iff_right hsize]
    exact and_congr_left fun _ => ⟨fun h => h hsize, fun h _ => h⟩

/-- What is allocated for an entry leads to its buffer, all else leads where it did. -/
theorem resolve_ranges_insert (h : a.insert entry = .ok a') (addr : Address) :
    a'.ranges.resolve addr = if entry.covers addr then some entry.bufferId
      else a.ranges.resolve addr := by
  rw [insert] at h
  split at h
  · rename_i hempty
    cases h
    rw [if_neg fun hcovers =>
      RangeEntry.size_ne_zero_of_contains (RangeEntry.covers_iff.mp hcovers).1 hempty]
  · obtain ⟨ranges, hranges, rfl⟩ := Except.map_eq_ok.mp h
    rw [AllocationMap.resolve_allocate hranges]
    simp only [RangeEntry.covers, Bool.and_eq_true, decide_eq_true_eq]
    rfl

theorem exact_insert (h : a.insert entry = .ok a') : a'.exact = a.exact := by
  rw [insert] at h
  split at h
  · cases h
    rfl
  · obtain ⟨ranges, -, rfl⟩ := Except.map_eq_ok.mp h
    rfl

/-- Several buffers can be allocated unless one of them starts at the last address. -/
theorem insertAll_eq_error_iff :
    a.insertAll entries = .error fault ↔
      (∃ e ∈ entries, e.size ≠ 0 ∧ e.base = Address.last) ∧ fault = .emptyRange := by
  induction entries generalizing a with
  | nil => exact iff_of_false (fun heq => nomatch heq) fun ⟨⟨_, hmem, _⟩, _⟩ => nomatch hmem
  | cons entry rest ih =>
    simp only [insertAll, List.mem_cons, exists_eq_or_imp]
    cases hinsert : a.insert entry with
    | error fault' =>
      obtain ⟨hlast, rfl⟩ := insert_eq_error_iff.mp hinsert
      exact ⟨fun h => by cases h; exact ⟨.inl hlast, rfl⟩, fun h => by rw [h.2]; rfl⟩
    | ok next =>
      have hfirst : ¬ (entry.size ≠ 0 ∧ entry.base = Address.last) := fun hlast =>
        nomatch hinsert.symm.trans (insert_eq_error_iff.mpr ⟨hlast, rfl⟩)
      rw [or_iff_right hfirst]
      exact ih

theorem exists_insertAll (h : ∀ e ∈ entries, e.size ≠ 0 → e.base ≠ Address.last) :
    ∃ a', a.insertAll entries = .ok a' := by
  cases hinsert : a.insertAll entries with
  | error fault =>
    obtain ⟨⟨e, hmem, hsize, hlast⟩, -⟩ := insertAll_eq_error_iff.mp hinsert
    exact absurd hlast (h e hmem hsize)
  | ok a' => exact ⟨a', rfl⟩

theorem exact_insertAll (h : a.insertAll entries = .ok a') : a'.exact = a.exact := by
  induction entries generalizing a with
  | nil => cases h; rfl
  | cons entry rest ih =>
    obtain ⟨next, hinsert, hrest⟩ := Except.bind_eq_ok.mp h
    exact (ih hrest).trans (exact_insert hinsert)

/-- **Of several buffers the last one that an address was allocated to counts.** -/
theorem resolve_ranges_insertAll (h : a.insertAll entries = .ok a') (addr : Address) :
    a'.ranges.resolve addr
      = ((entries.reverse.find? (·.covers addr)).map (·.bufferId)).or
        (a.ranges.resolve addr) := by
  induction entries generalizing a with
  | nil =>
    cases h
    rfl
  | cons entry rest ih =>
    obtain ⟨next, hinsert, hrest⟩ := Except.bind_eq_ok.mp h
    rw [ih hrest, resolve_ranges_insert hinsert, List.reverse_cons, List.find?_append,
      List.find?_singleton, Option.map_or, Option.or_assoc]
    congr 1
    split
    · rfl
    · rfl

/-- An address leads to the last of the buffers that have it. -/
theorem resolve_insertAll (h : insertAll {} entries = .ok a) (addr : Address) :
    a.resolve addr = (entries.reverse.find? (·.covers addr)).map (·.bufferId) := by
  rw [resolve, exact_insertAll h, resolve_ranges_insertAll h]
  exact Option.or_none

/-- Disjoint buffers need no order. -/
theorem resolve_eq_some_iff (hapart : entries.Pairwise RangeEntry.Apart)
    (h : insertAll {} entries = .ok a) {id : BufferId} :
    a.resolve addr = some id ↔ ∃ e ∈ entries, e.bufferId = id ∧ e.covers addr = true := by
  rw [resolve_insertAll h, Option.map_eq_some_iff]
  refine ⟨fun ⟨e, hfind, hid⟩ => ?_, fun ⟨e, hmem, hid, hcovers⟩ => ?_⟩
  · obtain ⟨hmem, hcovers⟩ := RangeEntry.covers_of_find? hfind
    exact ⟨e, hmem, hid, hcovers⟩
  · have hsome : (entries.reverse.find? (·.covers addr)).isSome :=
      List.find?_isSome.mpr ⟨e, List.mem_reverse.mpr hmem, hcovers⟩
    obtain ⟨e', hfind⟩ := Option.isSome_iff_exists.mp hsome
    obtain ⟨hmem', hcovers'⟩ := RangeEntry.covers_of_find? hfind
    have heq := RangeEntry.eq_of_contains hapart hmem' hmem
      (RangeEntry.covers_iff.mp hcovers').1 (RangeEntry.covers_iff.mp hcovers).1
    exact ⟨e, heq ▸ hfind, hid⟩

/-- **An address leads to the buffer that has it, but for the last address.**  The buffers are
disjoint and allocated one after the other.  As long as none of them has the last address, this
succeeds, and an address leads to a buffer exactly if it is one of its addresses.  It fails exactly
if a buffer starts at the last address.  If it succeeds, the last address leads nowhere, even if a
buffer has it, and every other address leads to the buffer that has it. -/
theorem resolves_but_last (hapart : entries.Pairwise RangeEntry.Apart) :
    ((∀ e ∈ entries, e.contains Address.last = false) →
      ∃ a, insertAll {} entries = .ok a ∧ ∀ addr id,
        a.resolve addr = some id ↔ ∃ e ∈ entries, e.bufferId = id ∧ e.contains addr = true) ∧
    (insertAll {} entries = .error .emptyRange ↔
      ∃ e ∈ entries, e.size ≠ 0 ∧ e.base = Address.last) ∧
    ((∀ e ∈ entries, e.size ≠ 0 → e.base ≠ Address.last) →
      ∃ a, insertAll {} entries = .ok a ∧ ∀ addr id,
        a.resolve addr = some id ↔
          addr ≠ Address.last ∧ ∃ e ∈ entries, e.bufferId = id ∧ e.contains addr = true) := by
  have hok : (∀ e ∈ entries, e.size ≠ 0 → e.base ≠ Address.last) →
      ∃ a, insertAll {} entries = .ok a ∧ ∀ addr id,
        a.resolve addr = some id ↔
          addr ≠ Address.last ∧ ∃ e ∈ entries, e.bufferId = id ∧ e.contains addr = true := by
    intro hbase
    cases hinsert : insertAll {} entries with
    | error fault =>
      obtain ⟨⟨e, hmem, hsize, hlast⟩, -⟩ := insertAll_eq_error_iff.mp hinsert
      exact absurd hlast (hbase e hmem hsize)
    | ok a =>
      refine ⟨a, rfl, fun addr id => ?_⟩
      rw [resolve_eq_some_iff hapart hinsert]
      simp only [RangeEntry.covers_iff]
      exact ⟨fun ⟨e, hmem, hid, hhas, hne⟩ => ⟨hne, e, hmem, hid, hhas⟩,
        fun ⟨hne, e, hmem, hid, hhas⟩ => ⟨e, hmem, hid, hhas, hne⟩⟩
  refine ⟨fun hnone => ?_, insertAll_eq_error_iff.trans (and_iff_left rfl), hok⟩
  -- a buffer that starts at the last address would have it
  obtain ⟨a, ha, hresolve⟩ := hok fun e hmem hsize hbase =>
    Bool.false_ne_true ((hnone e hmem).symm.trans (hbase ▸ RangeEntry.contains_base_iff.mpr hsize))
  refine ⟨a, ha, fun addr id => (hresolve addr id).trans (and_iff_right_of_imp ?_)⟩
  rintro ⟨e, hmem, -, hhas⟩ rfl
  exact Bool.false_ne_true ((hnone e hmem).symm.trans hhas)

/-- The second of two buffers ends with the last address, which leads nowhere. -/
theorem resolves_but_last_of_two :
    [⟨1, 0x1000, 16, false, 0⟩, ⟨2, 0xFFFFFFFFFFFFFFF0, 16, true, 0⟩].Pairwise RangeEntry.Apart ∧
      ∃ a, insertAll {} [⟨1, 0x1000, 16, false, 0⟩, ⟨2, 0xFFFFFFFFFFFFFFF0, 16, true, 0⟩] = .ok a ∧
        a.resolve 0x100F = some 1 ∧ a.resolve 0x1010 = none ∧
        a.resolve 0xFFFFFFFFFFFFFFFE = some 2 ∧ a.resolve Address.last = none := by
  have hapart : [⟨1, 0x1000, 16, false, 0⟩, ⟨2, 0xFFFFFFFFFFFFFFF0, 16, true, 0⟩].Pairwise
      RangeEntry.Apart :=
    List.pairwise_pair.mpr (RangeEntry.apart_of_le (by decide))
  obtain ⟨-, -, hinsert⟩ := resolves_but_last hapart
  obtain ⟨a, ha, hresolve⟩ := hinsert (by decide)
  refine ⟨hapart, a, ha, (hresolve _ _).mpr (by decide), ?_, (hresolve _ _).mpr (by decide), ?_⟩
  · refine Option.eq_none_iff_forall_ne_some.mpr fun id h => ?_
    obtain ⟨-, e, hmem, -, hhas⟩ := (hresolve _ _).mp h
    exact absurd hhas (by revert e; decide)
  · exact Option.eq_none_iff_forall_ne_some.mpr fun id h => ((hresolve _ _).mp h).1 rfl

/-- A single buffer that ends with the last address has an address that does not lead to it. -/
theorem last_address_lost :
    ¬ ∀ entries : List RangeEntry, (entries.map (·.bufferId)).Nodup →
      entries.Pairwise RangeEntry.Apart →
        ∃ a, insertAll {} entries = .ok a ∧ ∀ addr id,
          a.resolve addr = some id ↔ ∃ e ∈ entries, e.bufferId = id ∧ e.contains addr = true := by
  intro h
  obtain ⟨a, ha, hresolve⟩ :=
    h [⟨1, 0xFFFFFFFFFFFFFFF0, 16, false, 0⟩] (by decide) (List.pairwise_singleton _ _)
  have hlast : a.resolve Address.last = some 1 := (hresolve _ _).mpr (by decide)
  cases ha
  exact absurd hlast (by decide)

end Allocations

/-! ## The resolver of a machine -/

/-- A resolver can be made unless a buffer is to be allocated that starts at the last address. -/
theorem Resolver.exists_ofConfig {c : Config} (h : c.resolver.kind = .range →
    ∀ e ∈ c.table.entries, e.size ≠ 0 → e.base ≠ Address.last) :
    ∃ resolver, ofConfig c = .ok resolver := by
  cases hkind : c.resolver.kind with
  | exact => exact ⟨_, by rw [ofConfig, hkind]⟩
  | range =>
    obtain ⟨a, ha⟩ := Allocations.exists_insertAll (a := {}) (h hkind)
    refine ⟨.ranges { a with exact := .ofList c.resolver.addresses }, ?_⟩
    rw [ofConfig, hkind, ha]
    rfl

/-- **An address that leads to a buffer is one of its own**, unless addresses were mapped by hand.
Among single addresses it is the first one of the buffer, which an empty buffer has as well. -/
theorem Resolver.exists_entry {c : Config} {resolver : Resolver}
    (hresolver : ofConfig c = .ok resolver) (hnone : c.resolver.addresses = []) {addr : Address}
    {id : BufferId} (h : resolver.resolve addr = some id) :
    ∃ e ∈ c.table.entries, e.bufferId = id ∧
      (c.resolver.kind = .exact ∧ e.base = addr ∨
        c.resolver.kind = .range ∧ e.contains addr = true) := by
  rw [ofConfig, hnone] at hresolver
  cases hkind : c.resolver.kind with
  | exact =>
    rw [hkind] at hresolver
    cases hresolver
    obtain ⟨mapping, hfind, hid⟩ := Option.map_eq_some_iff.mp h
    have hmem := List.mem_of_find?_eq_some hfind
    rw [Mappings.ofList, List.mem_reverse, List.append_nil, List.mem_map] at hmem
    obtain ⟨e, he, rfl⟩ := hmem
    exact ⟨e, he, hid, .inl ⟨rfl, by simpa using List.find?_some hfind⟩⟩
  | range =>
    rw [hkind] at hresolver
    obtain ⟨allocations, hinsert, hrest⟩ := Except.bind_eq_ok.mp hresolver
    cases hrest
    have hranges : allocations.ranges.resolve addr = some id := h
    have hempty : ({} : Allocations).ranges.resolve addr = none := rfl
    rw [Allocations.resolve_ranges_insertAll hinsert, hempty, Option.or_none] at hranges
    obtain ⟨e, hfind, hid⟩ := Option.map_eq_some_iff.mp hranges
    obtain ⟨hmem, hcovers⟩ := RangeEntry.covers_of_find? hfind
    exact ⟨e, hmem, hid, .inr ⟨rfl, (RangeEntry.covers_iff.mp hcovers).1⟩⟩

end BoundsCheck
