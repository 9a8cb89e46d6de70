import BoundsCheck.Config.Basic
import BoundsCheck.Lookup
import BoundsCheck.Text.Uppercase
import BoundsCheck.Trace
import BoundsCheck.Verdict

/-!
# Events

What components report about their work: one constructor for each kind of event, its level and the
text it is reported with.
-/

set_option autoImplicit false

namespace BoundsCheck.Journal

/-- How much an event matters. -/
inductive Level
  | trace
  | debug
  | info
  | warn
deriving DecidableEq, Repr

/-- The name of a level. -/
def Level.name : Level → String
  | .trace => "TRACE"
  | .debug => "DEBUG"
  | .info => "INFO"
  | .warn => "WARN"

/-- Something a component did.  Caches are told apart by their names, checkers by their ids. -/
inductive Event
  /-- A buffer without an address was not allocated. -/
  | emptyBuffer (id : BufferId)
  /-- A buffer was allocated over another one. -/
  | overlap (id : BufferId)
  /-- The table took a lookup in. -/
  | tableReceive (req : Lookup.Request)
  /-- The table does not know the buffer of a lookup. -/
  | unknownBuffer (req : Lookup.Request)
  /-- The table answered a lookup. -/
  | tableSend (rsp : Lookup.Response)
  /-- A cache took a response in. -/
  | fill (cache : String) (rsp : Lookup.Response)
  /-- A cache gave an entry up for a new one. -/
  | evict (cache : String) (entry : RangeEntry)
  /-- A cache answered a lookup that waited. -/
  | respond (cache : String) (rsp : Lookup.Response)
  /-- No lookup waited for a response. -/
  | stray (cache : String) (rsp : Lookup.Response)
  /-- A cache held the entry for a lookup. -/
  | hit (cache : String) (req : Lookup.Request)
  /-- A lookup joined others that wait for the same entry. -/
  | mergedMiss (cache : String) (req : Lookup.Request)
  /-- A cache forwarded a lookup. -/
  | miss (cache : String) (req : Lookup.Request)
  /-- A switch delivered a response to an input. -/
  | route (rsp : Lookup.Response) (input : Nat)
  /-- A switch passed a request of an input on, and its cursor moved to `turn`. -/
  | grant (req : Lookup.Request) (input turn : Nat)
  /-- A checker let a trace go. -/
  | emit (checker : UInt64) (trace : Trace) (tag : Tag)
  /-- A checker judged an access. -/
  | judge (checker : UInt64) (verdict : Verdict)
  /-- The first trace of a checker has no access. -/
  | stall (checker : UInt64) (trace : Trace)
  /-- The address of a trace belongs to no buffer. -/
  | unresolved (checker : UInt64) (policy : UnresolvedPolicy) (trace : Trace)
  /-- A checker asked for the entry of a buffer. -/
  | lookUp (checker : UInt64) (req : Lookup.Request)
  /-- A machine was built. -/
  | built (cores entries : Nat) (kind : ResolverKind) (bypass : Bool)
  /-- A cycle begins. -/
  | cycle (number : Nat)
  /-- A checker was given a trace. -/
  | issue (checker : UInt64) (trace : Trace)
  /-- Nothing is left to do. -/
  | done (cycles : Nat)
  /-- A trace without an access was left out of a run. -/
  | skip (trace : Trace)
deriving DecidableEq, Repr

namespace Event

/-- The level of a verdict. -/
def verdictLevel (v : Verdict) : Level :=
  if !v.tracked then .debug else if v.valid then .trace else .warn

/-- How much an event matters. -/
def level : Event → Level
  | .emptyBuffer _ | .overlap _ | .unknownBuffer _ | .stray _ _ | .skip _ => .warn
  | .built _ _ _ _ | .done _ => .info
  | .evict _ _ | .respond _ _ | .stall _ _ | .cycle _ => .trace
  | .judge _ v => verdictLevel v
  | _ => .debug

/-- The name of a component with its number. -/
def numbered (name : String) (n : UInt64) : String := name ++ "[" ++ toString n ++ "]"

/-- The text a verdict is reported with. -/
def verdictText (checker : UInt64) (v : Verdict) : String :=
  if !v.tracked then numbered "bcu" checker ++ ": no range entry: " ++ v.text
  else if v.valid then numbered "bcu" checker ++ ": " ++ v.text
  else numbered "BCU" checker ++ " BOUNDS VIOLATION: " ++ v.text

/-- The name of a kind of resolver. -/
def kindName : ResolverKind → String
  | .exact => "Exact"
  | .range => "Range"

/-- The text an event is reported with. -/
def text : Event → String
  | .emptyBuffer id => "allocation: ignoring empty buffer " ++ toString id
  | .overlap id => "allocation: buffer " ++ toString id ++ " overlaps an existing allocation"
  | .tableReceive req =>
    "RBT-MEM RECEIVE: " ++ req.text ++ " buffer_id=" ++ toString req.bufferId
  | .unknownBuffer req =>
    "rbt-mem: invalid buffer id " ++ toString req.bufferId ++ " (#" ++ toString req.uuid ++ ")"
  | .tableSend rsp => "RBT-MEM SEND: " ++ rsp.text
  | .fill cache rsp => Text.upper cache ++ " FILL: " ++ rsp.text
  | .evict cache entry => cache ++ ": evicted " ++ entry.text
  | .respond cache rsp => cache ++ ": respond " ++ rsp.text
  | .stray cache rsp =>
    cache ++ ": response for buffer id " ++ toString rsp.bufferId ++ " without pending miss (#"
      ++ toString rsp.uuid ++ ")"
  | .hit cache req => Text.upper cache ++ " HIT: " ++ req.text
  | .mergedMiss cache req => Text.upper cache ++ " MERGED MISS: " ++ req.text
  | .miss cache req => Text.upper cache ++ " MISS: " ++ req.text
  | .route rsp input => "SWITCH RESPONSE: " ++ rsp.text ++ " to input " ++ toString input
  | .grant req input turn =>
    "SWITCH GRANT: " ++ req.text ++ " from input " ++ toString input
      ++ " (turn=" ++ toString turn ++ ")"
  | .emit checker trace tag =>
    numbered "BCU" checker ++ " EMIT: " ++ trace.text ++ " (tag=" ++ toString tag ++ ")"
  | .judge checker v => verdictText checker v
  | .stall checker trace => numbered "bcu" checker ++ ": stall on empty trace " ++ trace.text
  | .unresolved checker .drop trace =>
    numbered "bcu" checker ++ ": drop unresolved " ++ trace.text
  | .unresolved checker .forward trace =>
    numbered "bcu" checker ++ ": forward unresolved " ++ trace.text
  | .lookUp checker req => numbered "BCU" checker ++ " LOOKUP: " ++ req.text
  | .built cores entries kind bypass =>
    "simulating " ++ toString cores ++ " core(s) with " ++ toString entries ++ " range entries ("
      ++ kindName kind ++ " resolver, "
      ++ (if bypass then "bypass switch" else "arbitrated switch") ++ ")"
  | .cycle number => "======== cycle " ++ toString number ++ " ========"
  | .issue checker trace => numbered "ISSUE CORE" checker ++ ": " ++ trace.text
  | .done cycles => "simulation done in " ++ toString cycles ++ " cycles"
  | .skip trace => "skipping trace without memory accesses: " ++ trace.text

end Event

end BoundsCheck.Journal
