import BoundsCheck.Document.Basic

/-!
# Shapes of documents

In some notations one text stands for different values at different places: `0x10` is a number
where a number is expected and a text where a name is.  A shape tells what is expected.
-/

set_option autoImplicit false

namespace BoundsCheck.Document

/-- What is expected at a place of a document. -/
inductive Shape
  | number
  /-- A truth value. -/
  | flag
  /-- One of several names. -/
  | name
  | list (item : Shape)
  /-- Values under names.  What stands under any other name is passed over. -/
  | record (fields : List (String × Shape))
deriving Repr, Inhabited

end BoundsCheck.Document
