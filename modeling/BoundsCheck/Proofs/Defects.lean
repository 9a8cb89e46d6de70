import BoundsCheck.Proofs.Resolving

/-!
# Configurations that are refused

A configuration can have several defects at once, and the checks that find them are spread over the
parts of a machine.  Here the defects are listed in the order in which they are looked for.  A
machine can be built exactly if there is none, and whoever tries to build one otherwise is told the
first.  The checks of the parts that are built later on then have nothing left to find.

* `Config.defects` — the defects of a configuration, in order.
* `refuseFirst` — what becomes of a list of defects: the first one counts.
* `Config.validate_eq`, `RangeTable.checkEntries_eq` — the checks look for these defects.
* `Machine.new_names_first_defect` — a machine is built, or the first defect is named.
-/

set_option autoImplicit false

namespace BoundsCheck

/-! ## Lists of defects -/

/-- The defects of the parameters of a cache. -/
def CacheConfig.defects (component : String) (c : CacheConfig) : List Config.Error :=
  (if c.capacity = 0 then [.zeroCapacity component] else [])
    ++ (if c.hitLatency = 0 ∨ c.forwardingLatency = 0 then [.zeroLatency component] else [])

/-- The defect of an entry that comes behind others in the table. -/
def RangeEntry.defect? (earlier : List RangeEntry) (e : RangeEntry) : Option Config.Error :=
  if e.bufferId = invalidBuffer then some .reservedBufferId
  else if ∃ other ∈ earlier, other.bufferId = e.bufferId then some (.duplicateBufferId e.bufferId)
  else none

/-- The defects of the entries of a table, in the order of the entries. -/
def TableConfig.entryDefects (c : TableConfig) : List Config.Error :=
  c.entries.zipIdx.filterMap fun (e, i) => e.defect? (c.entries.take i)

/-- The defects of a configuration but for those of the entries of its table. -/
def Config.parameterDefects (c : Config) : List Config.Error :=
  (if c.cores.toNat = 0 ∨ 32 < c.cores.toNat then [.invalidSwitchInputs c.cores.toNat 32] else [])
    ++ (if c.checker.queueSize = 0 then [.zeroCapacity "bcu"] else [])
    ++ c.l1.defects "l1_rcache" ++ c.l2.defects "l2_rcache"
    ++ (if c.table.latency = 0 then [.zeroLatency "rbt_mem"] else [])
    ++ (if c.switch.delay = 0 then [.zeroLatency "switch"] else [])

/-- The defects of a configuration, in the order in which they are looked for. -/
def Config.defects (c : Config) : List Config.Error := c.parameterDefects ++ c.table.entryDefects

/-- Of several defects the first one counts. -/
def refuseFirst : List Config.Error → Except Config.Error Unit
  | [] => .ok ()
  | e :: _ => .error e

theorem refuseFirst_append (first second : List Config.Error) :
    refuseFirst (first ++ second) = (refuseFirst first >>= fun _ => refuseFirst second) := by
  cases first with
  | nil => rfl
  | cons e rest => rfl

theorem refuseFirst_ite (p : Prop) [Decidable p] (e : Config.Error) :
    refuseFirst (if p then [e] else []) = if p then .error e else .ok () := by
  split <;> rfl

/-! ## What the checks look for -/

theorem CacheConfig.validate_eq (component : String) (c : CacheConfig) :
    c.validate component = refuseFirst (c.defects component) := by
  simp only [defects, refuseFirst_append, refuseFirst_ite, validate, checkCapacity, checkLatency]
  congr 1
  funext _
  by_cases hhit : c.hitLatency = 0
  · simp only [hhit, true_or, if_true]
    rfl
  · simp only [hhit, false_or, if_false]
    rfl

/-- All parameters are looked at, in order. -/
theorem Config.validate_eq (c : Config) : c.validate = refuseFirst c.parameterDefects := by
  simp only [parameterDefects, refuseFirst_append, refuseFirst_ite, ← CacheConfig.validate_eq,
    validate, checkInputs, checkCapacity, checkLatency, maxSwitchInputs, bind_assoc]
  rfl

/-- All entries are looked at, in order, each beside those that come before it. -/
theorem RangeTable.checkEntries_eq (before entries : List RangeEntry) {known : List BufferId}
    (hknown : ∀ id, id ∈ known ↔ ∃ other ∈ before, other.bufferId = id) :
    checkEntries known entries = refuseFirst ((entries.zipIdx before.length).filterMap
      fun (e, i) => e.defect? ((before ++ entries).take i)) := by
  induction entries generalizing before known with
  | nil => rfl
  | cons entry rest ih =>
    rw [checkEntries, List.zipIdx_cons, List.filterMap_cons]
    simp only [List.take_left, RangeEntry.defect?, List.contains_iff_mem, hknown]
    split
    · rfl
    · split
      · rfl
      · have hlength : before.length + 1 = (before ++ [entry]).length := by simp
        have happend : before ++ entry :: rest = (before ++ [entry]) ++ rest := by simp
        rw [hlength, happend]
        refine ih (before ++ [entry]) fun id => ?_
        simp only [List.mem_cons, List.mem_append, List.not_mem_nil, or_false, or_and_right,
          exists_or, exists_eq_left, hknown]
        rw [or_comm, eq_comm]

theorem RangeTable.ofConfig_eq {c : TableConfig} (h : c.latency ≠ 0) :
    ofConfig c = (refuseFirst c.entryDefects).map fun _ => ⟨c.entries, c.latency, {}, {}⟩ := by
  have hentries : checkEntries [] c.entries = refuseFirst c.entryDefects :=
    checkEntries_eq [] c.entries (by simp)
  rw [ofConfig, new, checkLatency, if_neg h, hentries]
  rfl

/-! ## Configurations without a defect -/

theorem refuseFirst_eq_ok {defects : List Config.Error} {u : Unit} :
    refuseFirst defects = .ok u ↔ defects = [] := by
  cases defects with
  | nil => exact iff_of_true rfl rfl
  | cons e rest => exact iff_of_false (fun h => nomatch h) (List.cons_ne_nil e rest)

theorem CacheConfig.defects_eq_nil_iff {component : String} {c : CacheConfig} :
    c.defects component = [] ↔ c.Accepted := by
  constructor
  · intro h
    simp [defects] at h
    exact ⟨h.1, h.2.1, h.2.2⟩
  · rintro ⟨hcapacity, hhit, hforward⟩
    simp [defects, hcapacity, hhit, hforward]

theorem TableConfig.entryDefects_eq_nil_iff {c : TableConfig} :
    c.entryDefects = [] ↔ (∀ entry ∈ c.entries, entry.bufferId ≠ invalidBuffer) ∧
      (c.entries.map (·.bufferId)).Nodup := by
  have hentries : RangeTable.checkEntries [] c.entries = refuseFirst c.entryDefects :=
    RangeTable.checkEntries_eq [] c.entries (by simp)
  rw [← refuseFirst_eq_ok (u := ()), ← hentries, RangeTable.checkEntries_eq_ok]
  simp

/-- **A configuration is accepted if it has no defect.** -/
theorem Config.accepted_iff {c : Config} : c.Accepted ↔ c.defects = [] := by
  rw [defects, List.append_eq_nil_iff, TableConfig.entryDefects_eq_nil_iff]
  simp only [parameterDefects, List.append_eq_nil_iff, CacheConfig.defects_eq_nil_iff,
    ite_eq_right_iff, List.cons_ne_nil, imp_false]
  constructor
  · intro h
    have hcores : ¬ (c.cores.toNat = 0 ∨ 32 < c.cores.toNat) := by
      have hpos := h.pos
      have hle := h.le
      omega
    exact ⟨⟨⟨⟨⟨⟨hcores, h.queueSize⟩, h.l1⟩, h.l2⟩, h.latency⟩, h.delay⟩, h.ids, h.nodup⟩
  · rintro ⟨⟨⟨⟨⟨⟨hcores, hqueue⟩, hl1⟩, hl2⟩, hlatency⟩, hdelay⟩, hids, hnodup⟩
    exact ⟨by omega, by omega, hqueue, hl1, hl2, hlatency, hdelay, hids, hnodup⟩

/-! ## Building a machine -/

/-- The parts that are built behind the checks of the parameters. -/
structure Config.Buildable (c : Config) : Prop where
  /-- The caches of the cores hold something. -/
  l1 : ∃ lines, LineSet.new c.l1.capacity.toNat c.l1.policy = .ok lines
  /-- So does the shared cache. -/
  l2 : ∃ lines, LineSet.new c.l2.capacity.toNat c.l2.policy = .ok lines
  /-- The switch can be built, and its arbiter has somebody to choose from. -/
  switch : ∃ switch, Switch.new c.cores.toNat c.switch = .ok switch ∧
    ∀ arbiter, switch.mode = .arbitrated arbiter →
      Arbiter.new c.switch.policy c.cores.toNat = .ok arbiter
  /-- The table is refused only for one of its entries. -/
  table : ∀ e, RangeTable.ofConfig c.table = .error e ↔ c.table.entryDefects.head? = some e

variable {c : Config}

theorem LineSet.exists_new {capacity : UInt64} (h : capacity ≠ 0) (policy : ReplacementPolicy) :
    ∃ lines, LineSet.new capacity.toNat policy = .ok lines :=
  ⟨_, if_neg (Nat.ne_of_gt (toNat_pos_of_ne_zero h))⟩

theorem Switch.new_eq_fresh {inputs : Nat} {c : SwitchConfig} (hpos : 0 < inputs)
    (hle : inputs ≤ 32) (hdelay : c.delay ≠ 0) : Switch.new inputs c = .ok (fresh inputs c) := by
  rw [Switch.new, checkInputs_eq_ok (u := ()) |>.mpr ⟨hpos, hle⟩,
    checkLatency_eq_ok (u := ()) |>.mpr hdelay]
  rfl

theorem Switch.arbiter_new {inputs : Nat} {policy : ArbitrationPolicy} {arbiter : Arbiter}
    (hpos : 0 < inputs) (h : modeFor policy inputs = .arbitrated arbiter) :
    Arbiter.new policy inputs = .ok arbiter := by
  rw [modeFor] at h
  split at h
  · cases h
  · cases h
    exact if_neg (Nat.ne_of_gt hpos)

theorem refuseFirst_map_eq_error {defects : List Config.Error} {α : Type} {f : Unit → α}
    {e : Config.Error} : (refuseFirst defects).map f = .error e ↔ defects.head? = some e := by
  cases defects with
  | nil => exact iff_of_false (fun h => nomatch h) fun h => nomatch h
  | cons first rest =>
    rw [List.head?_cons, Option.some.injEq]
    exact Except.error.injEq first e ▸ Iff.rfl

/-- **The checks of the parameters leave nothing to find but entries of the table.** -/
theorem Config.buildable (h : c.validate = .ok ()) : c.Buildable := by
  obtain ⟨⟨hpos, hle⟩, -, hl1, hl2, hlatency, hdelay⟩ := validate_eq_ok h
  refine ⟨LineSet.exists_new hl1.capacity _, LineSet.exists_new hl2.capacity _,
    ⟨_, Switch.new_eq_fresh hpos hle hdelay, fun arbiter => Switch.arbiter_new hpos⟩, fun e => ?_⟩
  rw [RangeTable.ofConfig_eq hlatency, refuseFirst_map_eq_error]

namespace Machine

theorem checked_ok {α : Type} (a : α) : checked (.ok a) = .ok a := rfl

theorem faultless_ok {α : Type} (a : α) : faultless (.ok a) = .ok a := rfl

/-- Behind the checks of the parameters, only the entries of the table are still looked at. -/
theorem new_of_validate (hvalid : c.validate = .ok ()) {resolver : Resolver}
    (hresolver : Resolver.ofConfig c = .ok resolver) :
    Machine.new c = checked ((refuseFirst c.table.entryDefects).map fun _ => fresh c resolver) := by
  obtain ⟨⟨hpos, hle⟩, -, hl1, hl2, hlatency, hdelay⟩ := Config.validate_eq_ok hvalid
  rw [Machine.new, hvalid, hresolver]
  simp only [checked_ok, faultless_ok, Except.ok_bind, newCores_eq_fresh hl1.capacity,
    Switch.new_eq_fresh hpos hle hdelay, RangeCache.new_eq_fresh hl2.capacity,
    RangeTable.ofConfig_eq hlatency]
  cases c.table.entryDefects with
  | nil => rfl
  | cons e rest => rfl

/-- A machine is built or refused for its first defect, once its resolver is made. -/
theorem new_eq {resolver : Resolver} (hresolver : Resolver.ofConfig c = .ok resolver) :
    Machine.new c = checked ((refuseFirst c.defects).map fun _ => fresh c resolver) := by
  have hvalid := c.validate_eq
  rw [Config.defects]
  cases hdefects : c.parameterDefects with
  | nil =>
    rw [hdefects] at hvalid
    exact new_of_validate hvalid hresolver
  | cons first rest =>
    rw [hdefects] at hvalid
    rw [Machine.new, hvalid]
    rfl

/-- **A machine is built exactly of what is accepted, and otherwise the first defect is named.**
The entries of the table may be anything, except that a resolver by ranges cannot allocate a buffer
that starts at the last address.  Once the parameters are checked, no part is refused but a table,
and that only for one of its entries. -/
theorem new_names_first_defect (hrange : c.resolver.kind = .range →
    ∀ e ∈ c.table.entries, e.size ≠ 0 → e.base ≠ Address.last) :
    ((∃ m, Machine.new c = .ok m) ↔ c.Accepted) ∧
    (∀ e, Machine.new c = .error e ↔
      ∃ defect, c.defects.head? = some defect ∧ e = .invalid defect) ∧
    (c.validate = .ok () → c.Buildable) := by
  obtain ⟨resolver, hresolver⟩ := Resolver.exists_ofConfig hrange
  rw [new_eq hresolver, Config.accepted_iff]
  cases hdefects : c.defects with
  | nil =>
    refine ⟨iff_of_true ⟨_, rfl⟩ rfl, fun e => ?_, Config.buildable⟩
    exact iff_of_false (fun h => nomatch h) fun ⟨_, h, _⟩ => nomatch h
  | cons first rest =>
    refine ⟨iff_of_false (fun ⟨_, h⟩ => nomatch h) (List.cons_ne_nil _ _), fun e => ?_,
      Config.buildable⟩
    have hnew : checked ((refuseFirst (first :: rest)).map fun _ => fresh c resolver)
        = .error (.invalid first) := rfl
    rw [hnew, Except.error.injEq, List.head?_cons]
    simp [eq_comm]

/-- Of four defects the one of the shared cache is named, as it is looked for first.  Without those
of the parameters, the third entry is named: its buffer has an entry already. -/
theorem new_names_first_defect_of_four :
    let entry (id : BufferId) : RangeEntry := ⟨id, 0x1000, 16, false, 0⟩
    let good : Config :=
      { cores := 4, resolver := { kind := .range },
        table := { entries := [entry 7, entry 8, entry 7, entry 0] } }
    let bad : Config := { good with l2 := { hitLatency := 0 }, switch := { delay := 0 } }
    Machine.new bad = .error (.invalid (.zeroLatency "l2_rcache")) ∧
      Machine.new good = .error (.invalid (.duplicateBufferId 7)) ∧
      ∃ m, Machine.new { good with table := { entries := [entry 7, entry 8] } } = .ok m := by
  intro entry good bad
  refine ⟨?_, ?_, ?_⟩
  · exact ((new_names_first_defect (c := bad) (by decide)).2.1 _).mpr ⟨_, by decide, rfl⟩
  · exact ((new_names_first_defect (c := good) (by decide)).2.1 _).mpr ⟨_, by decide, rfl⟩
  · refine (new_names_first_defect (by decide)).1.mpr (Config.accepted_iff.mpr (by decide))

end Machine

end BoundsCheck
