import BoundsCheck.Document.Shape
import BoundsCheck.Document.Yaml.Node

/-!
# Reading YAML

What a scalar stands for depends on what is expected where it stands, so a tree is read along a
shape.  References to named nodes are followed on the way, but not without a limit.

* `valueText?`, `number?`, `nameText?` — what scalars stand for.
* `fit` — the document that a tree stands for where a shape is expected.
* `Yaml.read?` — the document of a shape that is written in a text.
-/

set_option autoImplicit false

namespace BoundsCheck.Yaml

open Document (Shape)

/-! ## Scalars -/

/-- The text of a scalar that can stand for more than a text: it is written without marks, or as a
literal block with a tag that says so. -/
def Node.valueText? (tag : String) : Node → Option String
  | .scalar .plain _ text => some text
  | .scalar .literal (some written) text =>
    if written = TagText.ofAscii ("tag:yaml.org,2002:" ++ tag) then some text else none
  | _ => none

/-- The value of a digit. -/
def digitValue? (base : Nat) (c : Char) : Option Nat := do
  let n ← hexValue? c
  if n < base then some n else none

/-- The number that some digits stand for. -/
def digits? (base : Nat) (cs : List Char) : Option Nat :=
  if cs.isEmpty then none
  else cs.foldlM (fun n c => (digitValue? base c).map (base * n + ·)) 0

/-- The number that a numeral stands for.  A numeral with a useless zero in front is none. -/
def number? (text : String) : Option Nat :=
  let unsigned : List Char → Option Nat
    | '0' :: 'x' :: cs => digits? 16 cs
    | '0' :: 'o' :: cs => digits? 8 cs
    | '0' :: 'b' :: cs => digits? 2 cs
    | ['0'] => some 0
    | '0' :: _ => none
    | cs => digits? 10 cs
  match text.toList with
  | '+' :: cs => unsigned cs
  | cs => unsigned cs

/-- The truth value that a word stands for. -/
def flag? (text : String) : Option Bool :=
  if ["true", "True", "TRUE"].contains text then some true
  else if ["false", "False", "FALSE"].contains text then some false
  else none

/-- The text stands for the absence of a value. -/
def isNothing (text : String) : Bool := ["", "~", "null", "Null", "NULL"].contains text

/-- The name that a tag is, without the exclamation mark before it. -/
def TagText.name? : TagText → Option String
  | [] => none
  | first :: rest =>
    if first = '!'.toUInt8 ∧ rest ≠ [] then TagText.toString? rest
    else TagText.toString? (first :: rest)

/-- The name that a scalar stands for: its tag, if nothing else is written, or its text. -/
def Node.nameText? : Node → Option String
  | .scalar style tag text =>
    match tag.bind TagText.name? with
    | none => some text
    | some name => if style = .plain ∧ isNothing text then some name else none
  | _ => none

/-- The text of a scalar. -/
def Node.text? : Node → Option String
  | .scalar _ _ text => some text
  | _ => none

/-- Nothing is written: a list or a record in its place is empty. -/
def Node.isNothing : Node → Bool
  | .scalar .plain _ text => text.isEmpty
  | _ => false

/-! ## Trees -/

/-- A reading that may fail, with the number of references that may still be followed. -/
abbrev Fitting (α : Type) := StateT Nat Option α

/-- Follows a reference to one of the named nodes. -/
def follow (targets : List (Nat × Node)) : Node → Fitting Node
  | .alias number => do
    match ← get with
    | 0 => failure
    | left + 1 =>
      set left
      targets.lookup number
  | .named _ node => return node
  | node => return node

mutual

/-- The document that a tree stands for where a shape is expected. -/
def fit (targets : List (Nat × Node)) : Shape → Node → Fitting Document
  | .number, node => do
    return .int (← number? (← (← follow targets node).valueText? "int"))
  | .flag, node => do
    return .bool (← flag? (← (← follow targets node).valueText? "bool"))
  | .name, node => do
    return .text (← (← follow targets node).nameText?)
  | .list item, node => do
    match ← follow targets node with
    | .list items => return .list (← items.mapM fun node => fit targets item node)
    | node => if node.isNothing then return .list [] else failure
  | .record fields, node => do
    match ← follow targets node with
    | .map entries =>
      let found ← entries.mapM fun (key, value) => do
        let name ← (← follow targets key).text?
        fitField targets fields name value
      return .record (found.filterMap id)
    | node => if node.isNothing then return .record [] else failure

/-- The field that an entry of a mapping stands for, unless it is to be passed over. -/
def fitField (targets : List (Nat × Node)) :
    List (String × Shape) → String → Node → Fitting (Option (String × Document))
  | [], _, _ => return none
  | (name, shape) :: fields, written, node =>
    if name = written then do return some (name, ← fit targets shape node)
    else fitField targets fields written node

end

/-- How many references may be followed in a tree. -/
def Node.referenceLimit (node : Node) : Nat := 100 * node.size

/-- The document of a shape that is written in a text. -/
def read? (shape : Shape) (text : String) : Option Document := do
  let node ← Node.ofTokens? (← tokens? text)
  return (← (fit node.targets shape node).run node.referenceLimit).1

end BoundsCheck.Yaml
