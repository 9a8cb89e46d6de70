import BoundsCheck.Document.Shape
import BoundsCheck.Lookup

/-!
# Range entries and lookups as documents
-/

set_option autoImplicit false

namespace BoundsCheck

open Document

/-- Writes a range entry. -/
def RangeEntry.toDocument (e : RangeEntry) : Document :=
  .record [("buffer_id", ofWord16 e.bufferId), ("base_addr", ofWord64 e.base),
    ("size", ofWord64 e.size), ("read_only", .bool e.readOnly), ("kernel_id", ofWord64 e.kernelId)]

/-- The shape of a range entry. -/
def RangeEntry.shape : Shape :=
  .record [("buffer_id", .number), ("base_addr", .number), ("size", .number),
    ("read_only", .flag), ("kernel_id", .number)]

/-- Reads a range entry.  It may be written to unless told otherwise. -/
def RangeEntry.ofDocument? (d : Document) : Option RangeEntry := do
  match ← d.fields? ["buffer_id", "base_addr", "size", "read_only", "kernel_id"] with
  | [id, base, size, readOnly, kernelId] =>
    return {
      bufferId := ← required? word16? id
      base := ← required? word64? base
      size := ← required? word64? size
      readOnly := ← optional? bool? false readOnly
      kernelId := ← optional? word64? 0 kernelId }
  | _ => none

/-- Writes a question. -/
def Lookup.Request.toDocument (req : Lookup.Request) : Document :=
  .record [("addr", ofWord64 req.addr), ("buffer_id", ofWord16 req.bufferId),
    ("tag", ofWord32 req.tag), ("uuid", ofWord64 req.uuid)]

/-- Reads a question. -/
def Lookup.Request.ofDocument? (d : Document) : Option Lookup.Request := do
  match ← d.fields? ["addr", "buffer_id", "tag", "uuid"] with
  | [addr, id, tag, uuid] =>
    return {
      addr := ← required? word64? addr
      bufferId := ← required? word16? id
      tag := ← required? word32? tag
      uuid := ← required? word64? uuid }
  | _ => none

/-- Writes an answer. -/
def Lookup.Response.toDocument (rsp : Lookup.Response) : Document :=
  .record [("tag", ofWord32 rsp.tag), ("entry", rsp.entry.toDocument), ("uuid", ofWord64 rsp.uuid),
    ("req_addr", ofWord64 rsp.addr), ("buffer_id", ofWord16 rsp.bufferId)]

/-- Reads an answer. -/
def Lookup.Response.ofDocument? (d : Document) : Option Lookup.Response := do
  match ← d.fields? ["tag", "entry", "uuid", "req_addr", "buffer_id"] with
  | [tag, entry, uuid, addr, id] =>
    return {
      tag := ← required? word32? tag
      entry := ← required? RangeEntry.ofDocument? entry
      uuid := ← required? word64? uuid
      addr := ← required? word64? addr
      bufferId := ← required? word16? id }
  | _ => none

end BoundsCheck
