import BoundsCheck.Document.Basic
import BoundsCheck.Trace

/-!
# Traces as documents
-/

set_option autoImplicit false

namespace BoundsCheck

open Document

/-- The names of the kinds of instructions. -/
def AccessKind.names : List (String × AccessKind) :=
  [("load", .load), ("store", .store), ("fence", .fence), ("prefetch", .prefetch)]

/-- The name of a kind of instruction. -/
def AccessKind.name : AccessKind → String
  | .load => "load"
  | .store => "store"
  | .fence => "fence"
  | .prefetch => "prefetch"

/-- Reads a kind of instruction. -/
def AccessKind.ofDocument? : Reader AccessKind := choice? names

/-- Writes an access. -/
def MemAccess.toDocument (a : MemAccess) : Document :=
  .record [("addr", ofWord64 a.addr), ("size", ofWord32 a.size)]

/-- Reads an access. -/
def MemAccess.ofDocument? (d : Document) : Option MemAccess := do
  match ← d.fields? ["addr", "size"] with
  | [addr, size] =>
    return { addr := ← required? word64? addr, size := ← required? word32? size }
  | _ => none

/-- Writes a trace. -/
def Trace.toDocument (t : Trace) : Document :=
  .record [("uuid", ofWord64 t.uuid), ("core_id", ofWord64 t.coreId), ("kind", .text t.kind.name),
    ("mem_addrs", .list (t.blocks.map fun block => .list (block.map (·.toDocument))))]

/-- Reads a trace.  It is one of the first core and without an access unless told otherwise. -/
def Trace.ofDocument? (d : Document) : Option Trace := do
  match ← d.fields? ["uuid", "core_id", "kind", "mem_addrs"] with
  | [uuid, coreId, kind, blocks] =>
    return {
      uuid := ← required? word64? uuid
      coreId := ← optional? word64? 0 coreId
      kind := ← required? AccessKind.ofDocument? kind
      blocks := ← optional? (items? (items? MemAccess.ofDocument?)) [] blocks }
  | _ => none

end BoundsCheck
