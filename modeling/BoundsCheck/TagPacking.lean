import BoundsCheck.Address
import BoundsCheck.Number.Binary64

/-!
# Packing input numbers into tags

A switch sends the requests of all its inputs to one server.  To find the input of a response again
it shifts the tag of a request to the left and puts the number of the input below.

* `tagShift` — by how many bits.
* `stamp`, `inputOf`, `unstamp` — the packed tag and its two parts.
* `overflows` — the tags that would lose bits.
-/

set_option autoImplicit false

namespace BoundsCheck.TagPacking

/-- How many bits it takes to number the inputs. -/
def tagShift (inputs : Nat) : Nat := Number.bitLength (inputs - 1)

/-- How many bits of a tag are zero above its highest one. -/
def leadingZeros (tag : Tag) : Nat := 32 - Number.bitLength tag.toNat

/-- The tag has a bit among the `shift` highest, which the shift would lose. -/
def overflows (shift : Nat) (tag : Tag) : Bool := leadingZeros tag < shift

/-- The tag with the number of the input below it. -/
def stamp (shift input : Nat) (tag : Tag) : Tag :=
  (tag <<< UInt32.ofNat shift) ||| UInt32.ofNat input

/-- The number of the input that a stamped tag came from. -/
def inputOf (shift : Nat) (tag : Tag) : Nat := (tag &&& ((1 <<< UInt32.ofNat shift) - 1)).toNat

/-- The tag before it was stamped. -/
def unstamp (shift : Nat) (tag : Tag) : Tag := tag >>> UInt32.ofNat shift

end BoundsCheck.TagPacking
