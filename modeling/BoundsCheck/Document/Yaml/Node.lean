import BoundsCheck.Document.Yaml.Token

/-!
# Trees of a YAML text

The tokens of a text form a tree of scalars, lists and mappings.  A node can be given a name, and
another place can then refer to it.

* `Node` — a tree.
* `Node.ofTokens?` — the tree that tokens form.
* `Node.targets` — the nodes that have been given names.
-/

set_option autoImplicit false

namespace BoundsCheck.Yaml

/-- A tree of scalars, lists and mappings. -/
inductive Node
  | scalar (style : Style) (tag : Option TagText) (text : String)
  | list (items : List Node)
  | map (entries : List (Node × Node))
  /-- A node under a name, which is known by its number. -/
  | named (number : Nat) (node : Node)
  /-- A reference to a node under a name. -/
  | alias (number : Nat)
deriving Repr, Inhabited

/-- The node that is nothing written. -/
def Node.nothing : Node := .scalar .plain none ""

/-! ## From tokens to trees -/

/-- The tokens that are left, and what is known from those before them. -/
structure Forest where
  tokens : List Token
  /-- What the handles of tags stand for. -/
  handles : Handles := .usual
  /-- The names in use, each with its number. -/
  names : List (String × Nat) := []

/-- What stands before a node: the number of its name and its tag. -/
structure Properties where
  name : Option Nat := none
  tag : Option TagText := none

namespace Forest

/-- The next token. -/
def token? (f : Forest) : Option Token := f.tokens.head?

/-- The next token is one of the given ones. -/
def nextIn (f : Forest) (tokens : List Token) : Bool := f.token?.any tokens.contains

/-- Passes over the next token. -/
def skip (f : Forest) : Forest := { f with tokens := f.tokens.tail }

/-- Passes over the next token if it is the given one. -/
def skip? (f : Forest) (token : Token) : Option Forest :=
  if f.token? = some token then some f.skip else none

/-- Gives a name to a node that begins here.  Its number is how many names were in use before, so a
name that is given twice can take the number that another name takes later. -/
def use (name : String) (f : Forest) : Nat × Forest :=
  let number := f.names.length
  (number, { f with names := (name, number) :: f.names.filter (·.1 != name) })

/-- Reads a name. -/
def name? (f : Forest) : Option Nat × Forest :=
  match f.token? with
  | some (.anchor name) => let (number, f) := f.skip.use name; (some number, f)
  | _ => (none, f)

/-- Reads a tag. -/
def tag? (f : Forest) : Option (Option TagText × Forest) :=
  match f.token? with
  | some (.tag tag) => (f.handles.resolve? tag).map (some ·, f.skip)
  | _ => some (none, f)

/-- Reads a name and a tag, in either order. -/
def properties? (f : Forest) : Option (Properties × Forest) := do
  let (before, f) := f.name?
  let (tag, f) ← f.tag?
  if before.isSome || tag.isNone then return (⟨before, tag⟩, f)
  else
    let (name, f) := f.name?
    return (⟨name, tag⟩, f)

end Forest

namespace Properties

/-- Nothing stands before a node. -/
def isEmpty (p : Properties) : Bool := p.name.isNone && p.tag.isNone

/-- The tag of a scalar that is written.  A lone exclamation mark is no tag of it. -/
def scalarTag (p : Properties) : Option TagText :=
  if p.tag = some (TagText.ofAscii "!") then none else p.tag

/-- A node with its name. -/
def apply (p : Properties) (node : Node) : Node :=
  match p.name with
  | none => node
  | some number => .named number node

end Properties

/-- A tree, and what is left behind it. -/
abbrev Reading := Option (Node × Forest)

mutual

/-- Reads a node.  `block` tells whether it may be written in lines, `unindented` whether it may be
a list that is not indented. -/
def readNode : Nat → Bool → Bool → Forest → Reading
  | 0, _, _, _ => none
  | fuel + 1, block, unindented, f =>
    match f.token? with
    | some (.alias name) => (f.names.lookup name).map fun number => (.alias number, f.skip)
    | _ => do
      let (p, f) ← f.properties?
      let missing : Reading := if p.isEmpty then none else some (.scalar .plain p.tag "", f)
      let (node, f) ← match f.token? with
        | some .blockEntry => if unindented then readUnindented fuel [] f else missing
        | some (.scalar style text) => some (.scalar style p.scalarTag text, f.skip)
        | some .flowListStart => readFlowItems fuel true [] f.skip
        | some .flowMapStart => readFlowEntries fuel true [] f.skip
        | some .blockListStart => if block then readItems fuel [] f.skip else missing
        | some .blockMapStart => if block then readEntries fuel [] f.skip else missing
        | _ => missing
      return (p.apply node, f)

/-- Reads a node, or nothing before one of the given tokens. -/
def readOptional : Nat → Bool → Bool → List Token → Forest → Reading
  | 0, _, _, _, _ => none
  | fuel + 1, block, unindented, stops, f =>
    if f.nextIn stops then some (.nothing, f) else readNode fuel block unindented f

/-- Reads the items of a list in lines, onto those before in reverse. -/
def readItems : Nat → List Node → Forest → Reading
  | 0, _, _ => none
  | fuel + 1, items, f =>
    match f.token? with
    | some .blockEntry => do
      let (item, f) ← readOptional fuel true false [.blockEntry, .blockEnd] f.skip
      readItems fuel (item :: items) f
    | some .blockEnd => some (.list items.reverse, f.skip)
    | _ => none

/-- Reads the items of a list that is not indented. -/
def readUnindented : Nat → List Node → Forest → Reading
  | 0, _, _ => none
  | fuel + 1, items, f =>
    match f.token? with
    | some .blockEntry => do
      let (item, f) ← readOptional fuel true false [.blockEntry, .key, .value, .blockEnd] f.skip
      readUnindented fuel (item :: items) f
    | _ => some (.list items.reverse, f)

/-- Reads the entries of a mapping in lines. -/
def readEntries : Nat → List (Node × Node) → Forest → Reading
  | 0, _, _ => none
  | fuel + 1, entries, f =>
    match f.token? with
    | some .key => do
      let (key, f) ← readOptional fuel true true [.key, .value, .blockEnd] f.skip
      let (value, f) ←
        if f.nextIn [.value] then readOptional fuel true true [.key, .value, .blockEnd] f.skip
        else some (.nothing, f)
      readEntries fuel ((key, value) :: entries) f
    | some .blockEnd => some (.map entries.reverse, f.skip)
    | _ => none

/-- Reads a value within brackets, if a colon comes next. -/
def readFlowValue : Nat → Token → Forest → Reading
  | 0, _, _ => none
  | fuel + 1, close, f =>
    if f.nextIn [.value] then readOptional fuel false false [.flowEntry, close] f.skip
    else some (.nothing, f)

/-- Reads the items of a list within brackets.  An item with a key is a mapping of one entry.
Where such a key is missing, the token that shows so is passed over. -/
def readFlowItems : Nat → Bool → List Node → Forest → Reading
  | 0, _, _, _ => none
  | fuel + 1, first, items, f =>
    if f.nextIn [.flowListEnd] then some (.list items.reverse, f.skip)
    else do
      let f ← if first then some f else f.skip? .flowEntry
      if f.nextIn [.flowListEnd] then return (.list items.reverse, f.skip)
      if f.nextIn [.key] then
        let f := f.skip
        let (key, f) ←
          if f.nextIn [.value, .flowEntry, .flowListEnd] then some (.nothing, f.skip)
          else readNode fuel false false f
        let (value, f) ← readFlowValue fuel .flowListEnd f
        readFlowItems fuel false (.map [(key, value)] :: items) f
      else
        let (item, f) ← readNode fuel false false f
        readFlowItems fuel false (item :: items) f

/-- Reads the entries of a mapping within brackets.  An entry may lack its value. -/
def readFlowEntries : Nat → Bool → List (Node × Node) → Forest → Reading
  | 0, _, _, _ => none
  | fuel + 1, first, entries, f =>
    if f.nextIn [.flowMapEnd] then some (.map entries.reverse, f.skip)
    else do
      let f ← if first then some f else f.skip? .flowEntry
      if f.nextIn [.flowMapEnd] then return (.map entries.reverse, f.skip)
      if f.nextIn [.key] then
        let (key, f) ← readOptional fuel false false [.value, .flowEntry, .flowMapEnd] f.skip
        let (value, f) ← readFlowValue fuel .flowMapEnd f
        readFlowEntries fuel false ((key, value) :: entries) f
      else
        let (key, f) ← readNode fuel false false f
        readFlowEntries fuel false ((key, .nothing) :: entries) f

end

/-- What a token says as a directive. -/
def Token.directive? : Token → Option Directive
  | .directive d => some d
  | _ => none

/-- Nothing is written in a document that ends here. -/
def Forest.atDocumentEnd (f : Forest) : Bool :=
  match f.token? with
  | none | some (.directive _) | some .documentStart | some .documentEnd => true
  | _ => false

/-- Reads a document: with its directives and its beginning marked, or without both. -/
def readDocument? (fuel : Nat) (tokens : List Token) : Reading := do
  let directives := tokens.takeWhile (·.directive?.isSome)
  let handles ← Handles.ofDirectives? (directives.filterMap (·.directive?))
  match directives, tokens.drop directives.length with
  | _, .documentStart :: tokens =>
    let f : Forest := { tokens, handles }
    if f.atDocumentEnd then return (.nothing, f) else readNode fuel true false f
  | [], tokens => readNode fuel true false { tokens }
  | _, _ => none

/-- Reads the only document among the tokens.  Where there is none, nothing was written. -/
def Node.ofTokens? (tokens : List Token) : Option Node := do
  if tokens.isEmpty then return .nothing
  else
    let (node, f) ← readDocument? (8 * (tokens.length + 1)) tokens
    if (f.tokens.dropWhile (· == .documentEnd)).isEmpty then return node else none

/-! ## Measures of trees -/

mutual

/-- How much is written in a tree: a list or a mapping counts as its beginning and its end. -/
def Node.size : Node → Nat
  | .scalar _ _ _ => 1
  | .list items => 2 + sizeOfItems items
  | .map entries => 2 + sizeOfEntries entries
  | .named _ node => node.size
  | .alias _ => 1

/-- How much is written in some trees. -/
def sizeOfItems : List Node → Nat
  | [] => 0
  | node :: nodes => node.size + sizeOfItems nodes

/-- How much is written in the entries of a mapping. -/
def sizeOfEntries : List (Node × Node) → Nat
  | [] => 0
  | (key, value) :: entries => key.size + value.size + sizeOfEntries entries

end

mutual

/-- The nodes of a tree that have been given names, onto others: the one that begins last comes
first. -/
def Node.collect : Node → List (Nat × Node) → List (Nat × Node)
  | .scalar _ _ _, found => found
  | .list items, found => collectItems items found
  | .map entries, found => collectEntries entries found
  | .named number node, found => node.collect ((number, node) :: found)
  | .alias _, found => found

/-- The nodes of some trees that have been given names. -/
def collectItems : List Node → List (Nat × Node) → List (Nat × Node)
  | [], found => found
  | node :: nodes, found => collectItems nodes (node.collect found)

/-- The nodes of the entries of a mapping that have been given names. -/
def collectEntries : List (Node × Node) → List (Nat × Node) → List (Nat × Node)
  | [], found => found
  | (key, value) :: entries, found => collectEntries entries (value.collect (key.collect found))

end

/-- The nodes of a tree by the numbers of their names.  Of two nodes with one number the one that
begins last counts. -/
def Node.targets (node : Node) : List (Nat × Node) := node.collect []

end BoundsCheck.Yaml
