import BoundsCheck.Codec.Config
import BoundsCheck.Codec.Trace
import Mathlib.Data.List.Forall2

/-!
# Reading back what was written

A configuration or a trace is written in one way by the program, but a person may write it in many:
the fields of a record in any order and among fields that nobody knows, without those whose value is
the one they have by default, or as the list of their values alone.  Each part of it may be written
in a way of its own.  Reading gives back the same value from all of them.

* `Document.WritesFields` — the ways to write a record with given fields.
* `Config.WrittenAs`, `Trace.WrittenAs`, … — the ways to write a value.
* `Document.Reads` — a reader understands all ways to write its values.
* `Document.reads_back` — configurations and traces are read back from all their documents.
-/

set_option autoImplicit false

namespace BoundsCheck

namespace Document

/-! ## Ways to write -/

section Forms

variable {α : Type}

/-- The value is written in one way only. -/
def Plainly (write : α → Document) (value : α) (d : Document) : Prop := d = write value

/-- The values are written as a list, each in a way of its own. -/
def Each (form : α → Document → Prop) (values : List α) (d : Document) : Prop :=
  ∃ items, d = .list items ∧ List.Forall₂ form values items

/-- A field of a record that is to be written. -/
structure Field where
  name : String
  /-- The ways to write the value of the field. -/
  Form : Document → Prop
  /-- The field may be left out. -/
  Omissible : Prop

namespace Field

/-- A field that has to be written. -/
def required (name : String) (form : α → Document → Prop) (value : α) : Field :=
  ⟨name, form value, False⟩

/-- A field that may be left out if its value is the one it has by default. -/
def optional (name : String) (form : α → Document → Prop) (default value : α) : Field :=
  ⟨name, form value, value = default⟩

/-- What may stand for the field: a way to write its value or, if it may be left out, nothing. -/
def Allows (f : Field) : Option Document → Prop
  | some d => f.Form d
  | none => f.Omissible

end Field

end Forms

/-- The values that are written, under the names they belong to. -/
def named : List String → List (Option Document) → List (String × Document)
  | name :: names, some d :: values => (name, d) :: named names values
  | _ :: names, none :: values => named names values
  | _, _ => []

/-- The ways to write a record with the given fields. -/
inductive WritesFields (fields : List Field) : Document → Prop
  /-- In any order and among others. -/
  | record {values : List (Option Document)} {others entries : List (String × Document)} :
      List.Forall₂ Field.Allows fields values →
      (∀ entry ∈ others, entry.1 ∉ fields.map (·.name)) →
      entries.Perm (named (fields.map (·.name)) values ++ others) →
      WritesFields fields (.record entries)
  /-- Without the names, up to a field after which all are left out. -/
  | list {items : List Document} {missing : Nat} :
      List.Forall₂ Field.Allows fields (items.map some ++ List.replicate missing none) →
      WritesFields fields (.list items)

/-! ## Fields by name -/

theorem mem_names_of_mem_named {names : List String} {values : List (Option Document)}
    {entry : String × Document} (h : entry ∈ named names values) : entry.1 ∈ names := by
  induction names, values using named.induct with
  | case1 name names d values ih =>
    rcases List.mem_cons.mp h with rfl | h
    · exact List.mem_cons_self
    · exact List.mem_cons_of_mem _ (ih h)
  | case2 name names values ih => exact List.mem_cons_of_mem _ (ih h)
  | case3 names values h₁ h₂ => simp [named] at h

theorem field?_eq_none {entries : List (String × Document)} {name : String}
    (h : ∀ entry ∈ entries, entry.1 ≠ name) : field? entries name = some none := by
  have hnone : entries.filter (·.1 == name) = [] := by simpa using h
  rw [field?, hnone]

theorem field?_eq_some {entries rest : List (String × Document)} {name : String} {d : Document}
    (hentries : entries.Perm ((name, d) :: rest)) (h : ∀ entry ∈ rest, entry.1 ≠ name) :
    field? entries name = some (some d) := by
  have hone : entries.filter (·.1 == name) = [(name, d)] := by
    have hrest : rest.filter (·.1 == name) = [] := by simpa using h
    have hperm := hentries.filter (·.1 == name)
    rw [List.filter_cons_of_pos (by simp), hrest] at hperm
    exact List.perm_singleton.mp hperm
  rw [field?, hone]

/-- What stands under the names is found, in whatever order and among whatever else it is
written. -/
theorem mapM_field? {entries : List (String × Document)} {names : List String}
    {values : List (Option Document)} {others : List (String × Document)} (hnames : names.Nodup)
    (hlength : names.length = values.length) (hothers : ∀ entry ∈ others, entry.1 ∉ names)
    (hentries : entries.Perm (named names values ++ others)) :
    names.mapM (field? entries) = some values := by
  -- The entries of the names that were looked up already are among the others for the rest.
  induction names generalizing values others with
  | nil => rw [List.eq_nil_of_length_eq_zero hlength.symm, List.mapM_nil]; rfl
  | cons name names ih =>
    obtain ⟨hname, hnames⟩ := List.nodup_cons.mp hnames
    have hrest : ∀ (values : List (Option Document)),
        ∀ entry ∈ named names values ++ others, entry.1 ≠ name := by
      intro values entry hentry heq
      rcases List.mem_append.mp hentry with h | h
      · exact hname (heq ▸ mem_names_of_mem_named h)
      · exact hothers entry h (heq ▸ List.mem_cons_self)
    match values, hlength with
    | none :: values, hlength =>
      have hothers' : ∀ entry ∈ others, entry.1 ∉ names := fun entry h hmem =>
        hothers entry h (List.mem_cons_of_mem _ hmem)
      have hhead : field? entries name = some none :=
        field?_eq_none fun entry h => hrest values entry (hentries.mem_iff.mp h)
      rw [List.mapM_cons, hhead, ih hnames (by simpa using hlength) hothers' hentries]
      rfl
    | some d :: values, hlength =>
      have hothers' : ∀ entry ∈ (name, d) :: others, entry.1 ∉ names := by
        intro entry h hmem
        rcases List.mem_cons.mp h with rfl | h
        · exact hname hmem
        · exact hothers entry h (List.mem_cons_of_mem _ hmem)
      have hhead : field? entries name = some (some d) := field?_eq_some hentries (hrest values)
      rw [List.mapM_cons, hhead, ih hnames (by simpa using hlength) hothers'
        (hentries.trans List.perm_middle.symm)]
      rfl

/-- However a record is written, its fields are found by their names. -/
theorem WritesFields.fields? {fields : List Field} {d : Document} (h : WritesFields fields d)
    (names : List String) (hfields : fields.map (·.name) = names) (hnames : names.Nodup) :
    ∃ values, d.fields? names = some values ∧ List.Forall₂ Field.Allows fields values := by
  subst hfields
  cases h with
  | record hvalues hothers hentries =>
    refine ⟨_, ?_, hvalues⟩
    exact mapM_field? hnames (by simpa using hvalues.length_eq) hothers hentries
  | @list items missing hvalues =>
    have hlength : fields.length = items.length + missing := by simpa using hvalues.length_eq
    refine ⟨_, ?_, hvalues⟩
    rw [Document.fields?, if_pos (by simp [hlength])]
    simp [hlength]

/-- A record may be written with all its fields, in their order. -/
theorem WritesFields.all {fields : List Field} {items : List Document}
    (h : List.Forall₂ (fun field d => field.Form d) fields items) :
    WritesFields fields (.record ((fields.map (·.name)).zip items)) := by
  have hnamed : named (fields.map (·.name)) (items.map some)
      = (fields.map (·.name)).zip items := by
    induction h with
    | nil => rfl
    | cons _ _ ih => simp [named, ih]
  have hvalues : List.Forall₂ Field.Allows fields (items.map some) :=
    List.forall₂_map_right_iff.mpr h
  have hentries : ((fields.map (·.name)).zip items).Perm
      (named (fields.map (·.name)) (items.map some) ++ []) := by rw [hnamed, List.append_nil]
  exact .record hvalues (fun _ h => absurd h List.not_mem_nil) hentries

/-! ## Readers -/

section Readers

variable {α : Type} {read : Reader α} {form : α → Document → Prop}

/-- The reader understands all the ways in which a value may be written. -/
def Reads (read : Reader α) (form : α → Document → Prop) : Prop :=
  ∀ value d, form value d → read d = some value

theorem natBelow?_int {bound n : Nat} (h : n < bound) : natBelow? bound (.int n) = some n := by
  have hcond : 0 ≤ (n : Int) ∧ (n : Int) < bound := by omega
  rw [natBelow?, if_pos hcond, Int.toNat_natCast]

theorem reads_bool : Reads bool? (Plainly .bool) := by
  rintro value _ rfl
  rfl

theorem reads_word64 : Reads word64? (Plainly ofWord64) := by
  rintro value _ rfl
  rw [word64?, ofWord64, natBelow?_int value.toNat_lt, Option.map_some, UInt64.ofNat_toNat]

theorem reads_word32 : Reads word32? (Plainly ofWord32) := by
  rintro value _ rfl
  rw [word32?, ofWord32, natBelow?_int value.toNat_lt, Option.map_some, UInt32.ofNat_toNat]

theorem reads_word16 : Reads word16? (Plainly ofWord16) := by
  rintro value _ rfl
  rw [word16?, ofWord16, natBelow?_int value.toNat_lt, Option.map_some, UInt16.ofNat_toNat]

theorem reads_choice {names : List (String × α)} {name : α → String}
    (h : ∀ value, names.lookup (name value) = some value) :
    Reads (choice? names) (Plainly fun value => .text (name value)) := by
  rintro value _ rfl
  exact h value

theorem Reads.items (h : Reads read form) : Reads (items? read) (Each form) := by
  rintro values _ ⟨items, rfl, hitems⟩
  rw [items?]
  induction hitems with
  | nil => rw [List.mapM_nil]; rfl
  | cons hitem _ ih => rw [List.mapM_cons, h _ _ hitem, ih]; rfl

theorem Reads.required (h : Reads read form) {name : String} {value : α} {d? : Option Document}
    (hd : (Field.required name form value).Allows d?) : required? read d? = some value := by
  cases d? with
  | none => exact hd.elim
  | some d => exact h value d hd

theorem Reads.optional (h : Reads read form) {name : String} {default value : α}
    {d? : Option Document} (hd : (Field.optional name form default value).Allows d?) :
    optional? read default d? = some value := by
  cases d? with
  | none => exact congrArg some (Eq.symm hd)
  | some d => exact h value d hd

theorem each_map {write : α → Document} (h : ∀ value, form value (write value))
    (values : List α) : Each form values (.list (values.map write)) :=
  ⟨_, rfl, List.forall₂_map_right_iff.mpr (List.forall₂_same.mpr fun value _ => h value)⟩

end Readers

end Document

open Document

/-! ## Traces -/

theorem AccessKind.reads :
    Reads AccessKind.ofDocument? (Plainly fun kind => .text kind.name) :=
  reads_choice fun kind => by cases kind <;> rfl

/-- The fields of an access. -/
def MemAccess.fields (a : MemAccess) : List Field :=
  [.required "addr" (Plainly ofWord64) a.addr, .required "size" (Plainly ofWord32) a.size]

/-- The ways to write an access. -/
def MemAccess.WrittenAs (a : MemAccess) : Document → Prop := WritesFields a.fields

theorem MemAccess.writtenAs_toDocument (a : MemAccess) : a.WrittenAs a.toDocument :=
  .all (.cons rfl (.cons rfl .nil))

theorem MemAccess.reads : Reads MemAccess.ofDocument? MemAccess.WrittenAs := by
  intro a d h
  have ⟨_, hfields, .cons haddr (.cons hsize .nil)⟩ := h.fields? ["addr", "size"] rfl (by decide)
  simp only [ofDocument?, hfields, Option.bind_eq_bind, Option.bind_some,
    reads_word64.required haddr, reads_word32.required hsize]
  rfl

/-- The fields of a trace. -/
def Trace.fields (t : Trace) : List Field :=
  [.required "uuid" (Plainly ofWord64) t.uuid,
    .optional "core_id" (Plainly ofWord64) 0 t.coreId,
    .required "kind" (Plainly fun kind => .text kind.name) t.kind,
    .optional "mem_addrs" (Each (Each MemAccess.WrittenAs)) [] t.blocks]

/-- The ways to write a trace. -/
def Trace.WrittenAs (t : Trace) : Document → Prop := WritesFields t.fields

theorem Trace.writtenAs_toDocument (t : Trace) : t.WrittenAs t.toDocument := by
  have hblocks := each_map (each_map MemAccess.writtenAs_toDocument) t.blocks
  exact .all (.cons rfl (.cons rfl (.cons rfl (.cons hblocks .nil))))

theorem Trace.reads : Reads Trace.ofDocument? Trace.WrittenAs := by
  intro t d h
  have ⟨_, hfields, .cons huuid (.cons hcore (.cons hkind (.cons hblocks .nil)))⟩ :=
    h.fields? ["uuid", "core_id", "kind", "mem_addrs"] rfl (by decide)
  simp only [ofDocument?, hfields, Option.bind_eq_bind, Option.bind_some,
    reads_word64.required huuid, reads_word64.optional hcore, AccessKind.reads.required hkind,
    MemAccess.reads.items.items.optional hblocks]
  rfl

/-! ## Parts of configurations -/

theorem UnresolvedPolicy.reads :
    Reads (choice? names) (Plainly fun policy => .text (name policy)) :=
  reads_choice fun policy => by cases policy <;> rfl

theorem ReplacementPolicy.reads :
    Reads (choice? names) (Plainly fun policy => .text (name policy)) :=
  reads_choice fun policy => by cases policy <;> rfl

theorem ResolverKind.reads :
    Reads (choice? names) (Plainly fun kind => .text (name kind)) :=
  reads_choice fun kind => by cases kind <;> rfl

theorem ArbitrationPolicy.reads :
    Reads (choice? names) (Plainly fun policy => .text (name policy)) :=
  reads_choice fun policy => by cases policy <;> rfl

/-- The fields of the parameters of a checker. -/
def CheckerConfig.fields (c : CheckerConfig) : List Field :=
  let default : CheckerConfig := {}
  [.optional "queue_size" (Plainly ofWord64) default.queueSize c.queueSize,
    .optional "unresolved" (Plainly fun policy => .text policy.name) default.unresolved
      c.unresolved]

/-- The ways to write the parameters of a checker. -/
def CheckerConfig.WrittenAs (c : CheckerConfig) : Document → Prop := WritesFields c.fields

theorem CheckerConfig.writtenAs_toDocument (c : CheckerConfig) : c.WrittenAs c.toDocument :=
  .all (.cons rfl (.cons rfl .nil))

theorem CheckerConfig.reads : Reads CheckerConfig.ofDocument? CheckerConfig.WrittenAs := by
  intro c d h
  have ⟨_, hfields, .cons hsize (.cons hpolicy .nil)⟩ :=
    h.fields? ["queue_size", "unresolved"] rfl (by decide)
  simp only [ofDocument?, hfields, Option.bind_eq_bind, Option.bind_some,
    reads_word64.optional hsize, UnresolvedPolicy.reads.optional hpolicy]
  rfl

/-- The fields of the parameters of a cache. -/
def CacheConfig.fields (c : CacheConfig) : List Field :=
  let default : CacheConfig := {}
  [.optional "capacity" (Plainly ofWord64) default.capacity c.capacity,
    .optional "hit_latency" (Plainly ofWord64) default.hitLatency c.hitLatency,
    .optional "forwarding_latency" (Plainly ofWord64) default.forwardingLatency
      c.forwardingLatency,
    .optional "replacement_policy" (Plainly fun policy => .text policy.name) default.policy
      c.policy]

/-- The ways to write the parameters of a cache. -/
def CacheConfig.WrittenAs (c : CacheConfig) : Document → Prop := WritesFields c.fields

theorem CacheConfig.writtenAs_toDocument (c : CacheConfig) : c.WrittenAs c.toDocument :=
  .all (.cons rfl (.cons rfl (.cons rfl (.cons rfl .nil))))

theorem CacheConfig.reads : Reads CacheConfig.ofDocument? CacheConfig.WrittenAs := by
  intro c d h
  have ⟨_, hfields, .cons hcapacity (.cons hhit (.cons hforwarding (.cons hpolicy .nil)))⟩ :=
    h.fields? ["capacity", "hit_latency", "forwarding_latency", "replacement_policy"] rfl
      (by decide)
  simp only [ofDocument?, hfields, Option.bind_eq_bind, Option.bind_some,
    reads_word64.optional hcapacity, reads_word64.optional hhit,
    reads_word64.optional hforwarding, ReplacementPolicy.reads.optional hpolicy]
  rfl

/-- The fields of a range entry. -/
def RangeEntry.fields (e : RangeEntry) : List Field :=
  [.required "buffer_id" (Plainly ofWord16) e.bufferId,
    .required "base_addr" (Plainly ofWord64) e.base,
    .required "size" (Plainly ofWord64) e.size,
    .optional "read_only" (Plainly .bool) false e.readOnly,
    .optional "kernel_id" (Plainly ofWord64) 0 e.kernelId]

/-- The ways to write a range entry. -/
def RangeEntry.WrittenAs (e : RangeEntry) : Document → Prop := WritesFields e.fields

theorem RangeEntry.writtenAs_toDocument (e : RangeEntry) : e.WrittenAs e.toDocument :=
  .all (.cons rfl (.cons rfl (.cons rfl (.cons rfl (.cons rfl .nil)))))

theorem RangeEntry.reads : Reads RangeEntry.ofDocument? RangeEntry.WrittenAs := by
  intro e d h
  have ⟨_, hfields,
      .cons hid (.cons hbase (.cons hsize (.cons hreadOnly (.cons hkernel .nil))))⟩ :=
    h.fields? ["buffer_id", "base_addr", "size", "read_only", "kernel_id"] rfl (by decide)
  simp only [ofDocument?, hfields, Option.bind_eq_bind, Option.bind_some,
    reads_word16.required hid, reads_word64.required hbase, reads_word64.required hsize,
    reads_bool.optional hreadOnly, reads_word64.optional hkernel]
  rfl

/-- The fields of the parameters of the range table. -/
def TableConfig.fields (c : TableConfig) : List Field :=
  let default : TableConfig := {}
  [.optional "latency" (Plainly ofWord64) default.latency c.latency,
    .optional "entries" (Each RangeEntry.WrittenAs) default.entries c.entries]

/-- The ways to write the parameters of the range table. -/
def TableConfig.WrittenAs (c : TableConfig) : Document → Prop := WritesFields c.fields

theorem TableConfig.writtenAs_toDocument (c : TableConfig) : c.WrittenAs c.toDocument :=
  .all (.cons rfl (.cons (each_map RangeEntry.writtenAs_toDocument c.entries) .nil))

theorem TableConfig.reads : Reads TableConfig.ofDocument? TableConfig.WrittenAs := by
  intro c d h
  have ⟨_, hfields, .cons hlatency (.cons hentries .nil)⟩ :=
    h.fields? ["latency", "entries"] rfl (by decide)
  simp only [ofDocument?, hfields, Option.bind_eq_bind, Option.bind_some,
    reads_word64.optional hlatency, RangeEntry.reads.items.optional hentries]
  rfl

/-- The fields of the mapping of an address. -/
def AddressMapping.fields (m : AddressMapping) : List Field :=
  [.required "addr" (Plainly ofWord64) m.addr, .required "buffer_id" (Plainly ofWord16) m.bufferId]

/-- The ways to write the mapping of an address. -/
def AddressMapping.WrittenAs (m : AddressMapping) : Document → Prop := WritesFields m.fields

theorem AddressMapping.writtenAs_toDocument (m : AddressMapping) : m.WrittenAs m.toDocument :=
  .all (.cons rfl (.cons rfl .nil))

theorem AddressMapping.reads : Reads AddressMapping.ofDocument? AddressMapping.WrittenAs := by
  intro m d h
  have ⟨_, hfields, .cons haddr (.cons hid .nil)⟩ :=
    h.fields? ["addr", "buffer_id"] rfl (by decide)
  simp only [ofDocument?, hfields, Option.bind_eq_bind, Option.bind_some,
    reads_word64.required haddr, reads_word16.required hid]
  rfl

/-- The fields of the parameters of the resolver. -/
def ResolverConfig.fields (c : ResolverConfig) : List Field :=
  let default : ResolverConfig := {}
  [.optional "kind" (Plainly fun kind => .text kind.name) default.kind c.kind,
    .optional "addresses" (Each AddressMapping.WrittenAs) default.addresses c.addresses]

/-- The ways to write the parameters of the resolver. -/
def ResolverConfig.WrittenAs (c : ResolverConfig) : Document → Prop := WritesFields c.fields

theorem ResolverConfig.writtenAs_toDocument (c : ResolverConfig) : c.WrittenAs c.toDocument :=
  .all (.cons rfl (.cons (each_map AddressMapping.writtenAs_toDocument c.addresses) .nil))

theorem ResolverConfig.reads : Reads ResolverConfig.ofDocument? ResolverConfig.WrittenAs := by
  intro c d h
  have ⟨_, hfields, .cons hkind (.cons haddresses .nil)⟩ :=
    h.fields? ["kind", "addresses"] rfl (by decide)
  simp only [ofDocument?, hfields, Option.bind_eq_bind, Option.bind_some,
    ResolverKind.reads.optional hkind, AddressMapping.reads.items.optional haddresses]
  rfl

/-- The fields of the parameters of the switch. -/
def SwitchConfig.fields (c : SwitchConfig) : List Field :=
  let default : SwitchConfig := {}
  [.optional "policy" (Plainly fun policy => .text policy.name) default.policy c.policy,
    .optional "delay" (Plainly ofWord64) default.delay c.delay]

/-- The ways to write the parameters of the switch. -/
def SwitchConfig.WrittenAs (c : SwitchConfig) : Document → Prop := WritesFields c.fields

theorem SwitchConfig.writtenAs_toDocument (c : SwitchConfig) : c.WrittenAs c.toDocument :=
  .all (.cons rfl (.cons rfl .nil))

theorem SwitchConfig.reads : Reads SwitchConfig.ofDocument? SwitchConfig.WrittenAs := by
  intro c d h
  have ⟨_, hfields, .cons hpolicy (.cons hdelay .nil)⟩ :=
    h.fields? ["policy", "delay"] rfl (by decide)
  simp only [ofDocument?, hfields, Option.bind_eq_bind, Option.bind_some,
    ArbitrationPolicy.reads.optional hpolicy, reads_word64.optional hdelay]
  rfl

/-! ## Configurations -/

/-- The fields of a configuration.  What a part is by default when it is left out need not be what
it is when it is written without a field: the two differ for the shared cache. -/
def Config.fields (c : Config) : List Field :=
  let default : Config := {}
  [.optional "num_cores" (Plainly ofWord64) default.cores c.cores,
    .optional "bcu" CheckerConfig.WrittenAs default.checker c.checker,
    .optional "l1_rcache" CacheConfig.WrittenAs default.l1 c.l1,
    .optional "l2_rcache" CacheConfig.WrittenAs default.l2 c.l2,
    .optional "rbt_mem" TableConfig.WrittenAs default.table c.table,
    .optional "resolver" ResolverConfig.WrittenAs default.resolver c.resolver,
    .optional "switch" SwitchConfig.WrittenAs default.switch c.switch]

/-- The ways to write a configuration. -/
def Config.WrittenAs (c : Config) : Document → Prop := WritesFields c.fields

theorem Config.writtenAs_toDocument (c : Config) : c.WrittenAs c.toDocument :=
  .all (.cons rfl (.cons c.checker.writtenAs_toDocument (.cons c.l1.writtenAs_toDocument
    (.cons c.l2.writtenAs_toDocument (.cons c.table.writtenAs_toDocument
      (.cons c.resolver.writtenAs_toDocument (.cons c.switch.writtenAs_toDocument .nil)))))))

theorem Config.reads : Reads Config.ofDocument? Config.WrittenAs := by
  intro c d h
  have ⟨_, hfields, .cons hcores (.cons hchecker (.cons hl1 (.cons hl2 (.cons htable
      (.cons hresolver (.cons hswitch .nil))))))⟩ :=
    h.fields? ["num_cores", "bcu", "l1_rcache", "l2_rcache", "rbt_mem", "resolver", "switch"] rfl
      (by decide)
  simp only [ofDocument?, hfields, Option.bind_eq_bind, Option.bind_some,
    reads_word64.optional hcores, CheckerConfig.reads.optional hchecker,
    CacheConfig.reads.optional hl1, CacheConfig.reads.optional hl2,
    TableConfig.reads.optional htable, ResolverConfig.reads.optional hresolver,
    SwitchConfig.reads.optional hswitch]
  rfl

-- A shared cache that is left out is not the one that is written without fields.
example : (Config.ofDocument? (.record [])).map (·.l2.forwardingLatency) = some 4 ∧
    (Config.ofDocument? (.record [("l2_rcache", .record [])])).map (·.l2.forwardingLatency)
      = some 1 :=
  ⟨rfl, rfl⟩

/-! ## All documents of a value -/

/-- Configurations and traces are read back: from the document that is written for them, and from
every other document that a person may write for them, with fields in any order or without names,
with fields that nobody knows, and without those that are as they are by default. -/
theorem Document.reads_back :
    (∀ c : Config, Config.ofDocument? c.toDocument = some c) ∧
    (∀ t : Trace, Trace.ofDocument? t.toDocument = some t) ∧
    (∀ (c : Config) (d : Document), c.WrittenAs d → Config.ofDocument? d = some c) ∧
    (∀ (t : Trace) (d : Document), t.WrittenAs d → Trace.ofDocument? d = some t) := by
  refine ⟨?config, ?trace, Config.reads, Trace.reads⟩
  case config => exact fun c => Config.reads c _ c.writtenAs_toDocument
  case trace => exact fun t => Trace.reads t _ t.writtenAs_toDocument

/-- A configuration that is as by default but for its switch, an entry and the shared cache. -/
def Config.sparse : Config where
  l2 := { capacity := 2 }
  table := { entries := [⟨1, 0xFFFFFFFFFFFFFFFF, 16, false, 0⟩] }
  switch := { policy := .priority }

/-- The configuration as a person may write it. -/
def Document.sparse : Document :=
  .record [("comment", .text "one buffer"), ("switch", .list [.text "Priority"]),
    ("rbt_mem", .record [("entries", .list [.record [("size", .int 16),
      ("base_addr", .int 0xFFFFFFFFFFFFFFFF), ("buffer_id", .int 1)]])]),
    ("l2_rcache", .record [("capacity", .int 2)])]

theorem Document.reads_back_sparse :
    (Config.sparse.WrittenAs Document.sparse ∧
      Config.ofDocument? Document.sparse = some Config.sparse) ∧
    (Trace.WrittenAs { uuid := 7, kind := .fence }
        (.record [("kind", .text "fence"), ("uuid", .int 7)]) ∧
      Trace.ofDocument? (.record [("kind", .text "fence"), ("uuid", .int 7)])
        = some { uuid := 7, kind := .fence }) := by
  have hentry : RangeEntry.WrittenAs ⟨1, 0xFFFFFFFFFFFFFFFF, 16, false, 0⟩ (.record
      [("size", .int 16), ("base_addr", .int 0xFFFFFFFFFFFFFFFF), ("buffer_id", .int 1)]) :=
    @WritesFields.record _ [some _, some _, some _, none, none] [] _
      (.cons rfl (.cons rfl (.cons rfl (.cons rfl (.cons rfl .nil))))) (by simp)
      (List.reverse_perm [_, _, _])
  have htable : Config.sparse.table.WrittenAs (.record [("entries", .list [.record
      [("size", .int 16), ("base_addr", .int 0xFFFFFFFFFFFFFFFF), ("buffer_id", .int 1)]])]) :=
    @WritesFields.record _ [none, some _] [] _
      (.cons rfl (.cons ⟨_, rfl, .cons hentry .nil⟩ .nil)) (by simp) (.refl _)
  have hl2 : Config.sparse.l2.WrittenAs (.record [("capacity", .int 2)]) :=
    @WritesFields.record _ [some _, none, none, none] [] _
      (.cons rfl (.cons rfl (.cons rfl (.cons rfl .nil)))) (by simp) (.refl _)
  have hswitch : Config.sparse.switch.WrittenAs (.list [.text "Priority"]) :=
    @WritesFields.list _ _ 1 (.cons rfl (.cons rfl .nil))
  have hconfig : Config.sparse.WrittenAs Document.sparse :=
    @WritesFields.record _ [none, none, none, some _, some _, none, some _] [("comment", _)] _
      (.cons rfl (.cons rfl (.cons rfl (.cons hl2 (.cons htable (.cons rfl
        (.cons hswitch .nil)))))))
      (by simp [Config.fields, Field.optional]) (List.reverse_perm [_, _, _, _])
  have htrace : Trace.WrittenAs { uuid := 7, kind := .fence }
      (.record [("kind", .text "fence"), ("uuid", .int 7)]) :=
    @WritesFields.record _ [some _, none, some _, none] [] _
      (.cons rfl (.cons rfl (.cons rfl (.cons rfl .nil)))) (by simp) (List.reverse_perm [_, _])
  exact ⟨⟨hconfig, Document.reads_back.2.2.1 _ _ hconfig⟩,
    ⟨htrace, Document.reads_back.2.2.2 _ _ htrace⟩⟩

end BoundsCheck
