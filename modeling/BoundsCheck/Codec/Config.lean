import BoundsCheck.Codec.Lookup
import BoundsCheck.Config.Basic

/-!
# Configurations as documents

Every field may be left out.  A field that is left out of a part has the value it has in that part
by default; a part that is left out as a whole has the value it has in the configuration by default.
-/

set_option autoImplicit false

namespace BoundsCheck

open Document

/-! ## Names -/

/-- The names of the replacement policies. -/
def ReplacementPolicy.names : List (String × ReplacementPolicy) := [("LRU", .lru), ("FIFO", .fifo)]

/-- The name of a replacement policy. -/
def ReplacementPolicy.name : ReplacementPolicy → String
  | .lru => "LRU"
  | .fifo => "FIFO"

/-- The names of the policies for traces without a buffer. -/
def UnresolvedPolicy.names : List (String × UnresolvedPolicy) :=
  [("drop", .drop), ("forward", .forward)]

/-- The name of a policy for traces without a buffer. -/
def UnresolvedPolicy.name : UnresolvedPolicy → String
  | .drop => "drop"
  | .forward => "forward"

/-- The names of the kinds of resolvers. -/
def ResolverKind.names : List (String × ResolverKind) := [("exact", .exact), ("range", .range)]

/-- The name of a kind of resolver. -/
def ResolverKind.name : ResolverKind → String
  | .exact => "exact"
  | .range => "range"

/-- The names of the arbitration policies. -/
def ArbitrationPolicy.names : List (String × ArbitrationPolicy) :=
  [("Priority", .priority), ("RoundRobin", .roundRobin)]

/-- The name of an arbitration policy. -/
def ArbitrationPolicy.name : ArbitrationPolicy → String
  | .priority => "Priority"
  | .roundRobin => "RoundRobin"

/-! ## Writing -/

/-- Writes the parameters of a checker. -/
def CheckerConfig.toDocument (c : CheckerConfig) : Document :=
  .record [("queue_size", ofWord64 c.queueSize), ("unresolved", .text c.unresolved.name)]

/-- Writes the parameters of a cache. -/
def CacheConfig.toDocument (c : CacheConfig) : Document :=
  .record [("capacity", ofWord64 c.capacity), ("hit_latency", ofWord64 c.hitLatency),
    ("forwarding_latency", ofWord64 c.forwardingLatency),
    ("replacement_policy", .text c.policy.name)]

/-- Writes the parameters of the range table. -/
def TableConfig.toDocument (c : TableConfig) : Document :=
  .record [("latency", ofWord64 c.latency), ("entries", .list (c.entries.map (·.toDocument)))]

/-- Writes the mapping of an address. -/
def AddressMapping.toDocument (m : AddressMapping) : Document :=
  .record [("addr", ofWord64 m.addr), ("buffer_id", ofWord16 m.bufferId)]

/-- Writes the parameters of the resolver. -/
def ResolverConfig.toDocument (c : ResolverConfig) : Document :=
  .record [("kind", .text c.kind.name), ("addresses", .list (c.addresses.map (·.toDocument)))]

/-- Writes the parameters of the switch. -/
def SwitchConfig.toDocument (c : SwitchConfig) : Document :=
  .record [("policy", .text c.policy.name), ("delay", ofWord64 c.delay)]

/-- Writes a configuration. -/
def Config.toDocument (c : Config) : Document :=
  .record [("num_cores", ofWord64 c.cores), ("bcu", c.checker.toDocument),
    ("l1_rcache", c.l1.toDocument), ("l2_rcache", c.l2.toDocument),
    ("rbt_mem", c.table.toDocument), ("resolver", c.resolver.toDocument),
    ("switch", c.switch.toDocument)]

/-! ## Shapes -/

/-- The shape of the parameters of a checker. -/
def CheckerConfig.shape : Shape := .record [("queue_size", .number), ("unresolved", .name)]

/-- The shape of the parameters of a cache. -/
def CacheConfig.shape : Shape :=
  .record [("capacity", .number), ("hit_latency", .number), ("forwarding_latency", .number),
    ("replacement_policy", .name)]

/-- The shape of the parameters of the range table. -/
def TableConfig.shape : Shape :=
  .record [("latency", .number), ("entries", .list RangeEntry.shape)]

/-- The shape of the mapping of an address. -/
def AddressMapping.shape : Shape := .record [("addr", .number), ("buffer_id", .number)]

/-- The shape of the parameters of the resolver. -/
def ResolverConfig.shape : Shape :=
  .record [("kind", .name), ("addresses", .list AddressMapping.shape)]

/-- The shape of the parameters of the switch. -/
def SwitchConfig.shape : Shape := .record [("policy", .name), ("delay", .number)]

/-- The shape of a configuration. -/
def Config.shape : Shape :=
  .record [("num_cores", .number), ("bcu", CheckerConfig.shape), ("l1_rcache", CacheConfig.shape),
    ("l2_rcache", CacheConfig.shape), ("rbt_mem", TableConfig.shape),
    ("resolver", ResolverConfig.shape), ("switch", SwitchConfig.shape)]

/-! ## Reading -/

/-- Reads the parameters of a checker. -/
def CheckerConfig.ofDocument? (d : Document) : Option CheckerConfig := do
  let default : CheckerConfig := {}
  match ← d.fields? ["queue_size", "unresolved"] with
  | [queueSize, unresolved] =>
    return {
      queueSize := ← optional? word64? default.queueSize queueSize
      unresolved :=
        ← optional? (choice? UnresolvedPolicy.names) default.unresolved unresolved }
  | _ => none

/-- Reads the parameters of a cache. -/
def CacheConfig.ofDocument? (d : Document) : Option CacheConfig := do
  let default : CacheConfig := {}
  let names := ["capacity", "hit_latency", "forwarding_latency", "replacement_policy"]
  match ← d.fields? names with
  | [capacity, hitLatency, forwardingLatency, policy] =>
    return {
      capacity := ← optional? word64? default.capacity capacity
      hitLatency := ← optional? word64? default.hitLatency hitLatency
      forwardingLatency := ← optional? word64? default.forwardingLatency forwardingLatency
      policy := ← optional? (choice? ReplacementPolicy.names) default.policy policy }
  | _ => none

/-- Reads the parameters of the range table. -/
def TableConfig.ofDocument? (d : Document) : Option TableConfig := do
  let default : TableConfig := {}
  match ← d.fields? ["latency", "entries"] with
  | [latency, entries] =>
    return {
      latency := ← optional? word64? default.latency latency
      entries := ← optional? (items? RangeEntry.ofDocument?) default.entries entries }
  | _ => none

/-- Reads the mapping of an address. -/
def AddressMapping.ofDocument? (d : Document) : Option AddressMapping := do
  match ← d.fields? ["addr", "buffer_id"] with
  | [addr, id] =>
    return { addr := ← required? word64? addr, bufferId := ← required? word16? id }
  | _ => none

/-- Reads the parameters of the resolver. -/
def ResolverConfig.ofDocument? (d : Document) : Option ResolverConfig := do
  let default : ResolverConfig := {}
  match ← d.fields? ["kind", "addresses"] with
  | [kind, addresses] =>
    return {
      kind := ← optional? (choice? ResolverKind.names) default.kind kind
      addresses :=
        ← optional? (items? AddressMapping.ofDocument?) default.addresses addresses }
  | _ => none

/-- Reads the parameters of the switch. -/
def SwitchConfig.ofDocument? (d : Document) : Option SwitchConfig := do
  let default : SwitchConfig := {}
  match ← d.fields? ["policy", "delay"] with
  | [policy, delay] =>
    return {
      policy := ← optional? (choice? ArbitrationPolicy.names) default.policy policy
      delay := ← optional? word64? default.delay delay }
  | _ => none

/-- Reads a configuration. -/
def Config.ofDocument? (d : Document) : Option Config := do
  let default : Config := {}
  let names := ["num_cores", "bcu", "l1_rcache", "l2_rcache", "rbt_mem", "resolver", "switch"]
  match ← d.fields? names with
  | [cores, checker, l1, l2, table, resolver, switch] =>
    return {
      cores := ← optional? word64? default.cores cores
      checker := ← optional? CheckerConfig.ofDocument? default.checker checker
      l1 := ← optional? CacheConfig.ofDocument? default.l1 l1
      l2 := ← optional? CacheConfig.ofDocument? default.l2 l2
      table := ← optional? TableConfig.ofDocument? default.table table
      resolver := ← optional? ResolverConfig.ofDocument? default.resolver resolver
      switch := ← optional? SwitchConfig.ofDocument? default.switch switch }
  | _ => none

end BoundsCheck
