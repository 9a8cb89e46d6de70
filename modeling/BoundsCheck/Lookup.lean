import BoundsCheck.Port
import BoundsCheck.RangeEntry

/-!
# Lookups

A lookup asks for the range entry of a buffer on behalf of one memory access.  Its answer repeats
everything the question said beside the entry, so that a server may answer several questions with
one entry.
-/

set_option autoImplicit false

namespace BoundsCheck.Lookup

/-- The question for the range entry of a buffer. -/
structure Request where
  addr : Address
  bufferId : BufferId
  tag : Tag
  uuid : Uuid
deriving DecidableEq, Repr

/-- The answer to a question. -/
structure Response where
  tag : Tag
  entry : RangeEntry
  uuid : Uuid
  addr : Address
  bufferId : BufferId
deriving DecidableEq, Repr

/-- The ports of a server of lookups. -/
abbrev Link := BoundsCheck.Link Request Response

/-- Answers the question with an entry. -/
def Request.answer (req : Request) (entry : RangeEntry) : Response where
  tag := req.tag
  entry := entry
  uuid := req.uuid
  addr := req.addr
  bufferId := req.bufferId

/-- The question as it is written in messages. -/
def Request.text (req : Request) : String :=
  "rbt-entry-req: addr=" ++ Text.hexMarked req.addr.toNat ++ ", tag=" ++ toString req.tag
    ++ ", buffer_id=" ++ toString req.bufferId ++ " (#" ++ toString req.uuid ++ ")"

/-- The answer as it is written in messages. -/
def Response.text (rsp : Response) : String :=
  "rbt-entry-rsp: tag=" ++ toString rsp.tag ++ ", rbt_entry=" ++ rsp.entry.text
    ++ " (#" ++ toString rsp.uuid ++ ")"

end BoundsCheck.Lookup
