import BoundsCheck.Document.Yaml.Scalar
import BoundsCheck.Document.Yaml.Tag

/-!
# Tokens of a YAML text

Indentation becomes tokens of its own: a block begins where something is indented further than what
is around it and ends where something is indented less.  That something was the key of a mapping
shows only at the colon behind it, so places where a key may have begun are kept until then.

* `Token` — what a text is made of.
* `Scanner.step` — one token further.
* `tokens?` — the tokens of a text.
-/

set_option autoImplicit false

namespace BoundsCheck.Yaml

/-- How a scalar is written, as far as that matters. -/
inductive Style
  /-- Without marks. -/
  | plain
  /-- As a block of lines whose line breaks are kept. -/
  | literal
  /-- Between quotation marks, or as a block of lines whose line breaks are folded. -/
  | other
deriving DecidableEq, Repr

/-- What a text is made of. -/
inductive Token
  | directive (directive : Directive)
  | documentStart
  | documentEnd
  | blockListStart
  | blockMapStart
  | blockEnd
  | flowListStart
  | flowListEnd
  | flowMapStart
  | flowMapEnd
  | blockEntry
  | flowEntry
  | key
  | value
  | alias (name : String)
  | anchor (name : String)
  | tag (tag : WrittenTag)
  | scalar (style : Style) (text : String)
deriving DecidableEq, Repr

/-- A place where the key of a mapping may have begun. -/
structure PossibleKey where
  /-- The number of the token that may be the key. -/
  position : Nat
  index : Nat
  line : Nat
  column : Nat
  /-- It has to be a key: nothing else can be there. -/
  required : Bool

/-- The scanner in the middle of a text. -/
structure Scanner where
  cursor : Cursor
  /-- The tokens so far, the last one first. -/
  tokens : List Token := []
  /-- How many tokens there are so far. -/
  count : Nat := 0
  /-- The columns of the blocks that are open, the innermost first. -/
  blocks : List Nat := []
  /-- How many brackets are open. -/
  depth : Nat := 0
  /-- The places where a key may have begun, for each level of brackets, the innermost first. -/
  keys : List (Option PossibleKey) := [none]
  /-- A key may begin here. -/
  keyAllowed : Bool := true

namespace Scanner

/-! ## Tokens and keys -/

/-- Brackets are open. -/
def inFlow (s : Scanner) : Bool := 0 < s.depth

/-- The column of the innermost block. -/
def indent? (s : Scanner) : Option Nat := s.blocks.head?

/-- Adds a token. -/
def emit (token : Token) (s : Scanner) : Scanner :=
  { s with tokens := token :: s.tokens, count := s.count + 1 }

/-- Adds a token behind the first `position` ones. -/
def insertAt (position : Nat) (token : Token) (s : Scanner) : Scanner :=
  let behind := s.count - position
  { s with
    tokens := s.tokens.take behind ++ token :: s.tokens.drop behind
    count := s.count + 1 }

/-- Goes on from another place. -/
def goTo (cursor : Cursor) (s : Scanner) : Scanner := { s with cursor }

/-- The innermost place where a key may have begun. -/
def possibleKey? (s : Scanner) : Option PossibleKey := s.keys.head?.join

/-- Replaces the innermost place where a key may have begun. -/
def setKey (key : Option PossibleKey) (s : Scanner) : Scanner :=
  { s with keys := key :: s.keys.tail }

/-- Gives up the innermost place where a key may have begun, unless there has to be one. -/
def dropKey? (s : Scanner) : Option Scanner :=
  match s.possibleKey? with
  | some key => if key.required then none else some (s.setKey none)
  | none => some s

/-- A key is written on one line and is not too long. -/
def isStale (s : Scanner) (key : PossibleKey) : Bool :=
  key.line < s.cursor.line || key.index + 1024 < s.cursor.index

/-- Gives up all places where it is too late for a key. -/
def dropStaleKeys? (s : Scanner) : Option Scanner := do
  let keys ← s.keys.mapM fun key? =>
    match key? with
    | none => some none
    | some key =>
      if !s.isStale key then some (some key) else if key.required then none else some none
  return { s with keys }

/-- Notes that a key may begin here. -/
def noteKey? (s : Scanner) : Option Scanner :=
  if !s.keyAllowed then some s
  else do
    let s ← s.dropKey?
    return s.setKey (some {
      position := s.count
      index := s.cursor.index
      line := s.cursor.line
      column := s.cursor.column
      required := !s.inFlow && s.indent? == some s.cursor.column })

/-- Says whether a key may begin next. -/
def allowKey (allowed : Bool) (s : Scanner) : Scanner := { s with keyAllowed := allowed }

/-! ## Blocks -/

/-- Begins a block at a column, unless one is open there already. -/
def openBlock (column position : Nat) (token : Token) (s : Scanner) : Scanner :=
  if s.inFlow then s
  else if s.indent?.all (· < column) then
    { s.insertAt position token with blocks := column :: s.blocks }
  else s

/-- Ends the blocks that are indented further than a column; without a column, all blocks. -/
def closeBlocks (column : Option Nat) (s : Scanner) : Scanner :=
  if s.inFlow then s
  else
    let deeper (block : Nat) : Bool := column.all (· < block)
    let closed := s.blocks.takeWhile deeper
    { s with
      tokens := closed.map (fun _ => .blockEnd) ++ s.tokens
      count := s.count + closed.length
      blocks := s.blocks.dropWhile deeper }

/-! ## Single tokens -/

/-- Takes a mark of some characters as a token. -/
def mark (length : Nat) (token : Token) (s : Scanner) : Scanner :=
  (s.emit token).goTo (s.cursor.skip length)

/-- The beginning or the end of a document. -/
def documentMark? (token : Token) (s : Scanner) : Option Scanner := do
  let s ← (s.closeBlocks none).dropKey?
  return (s.allowKey false).mark 3 token

/-- An opening bracket. -/
def openFlow? (token : Token) (s : Scanner) : Option Scanner := do
  let s ← s.noteKey?
  return ({ s with depth := s.depth + 1, keys := none :: s.keys }.allowKey true).mark 1 token

/-- A closing bracket. -/
def closeFlow? (token : Token) (s : Scanner) : Option Scanner := do
  let s ← s.dropKey?
  let s := if s.inFlow then { s with depth := s.depth - 1, keys := s.keys.tail } else s
  return (s.allowKey false).mark 1 token

/-- A comma within brackets. -/
def flowEntry? (s : Scanner) : Option Scanner := do
  return ((← s.dropKey?).allowKey true).mark 1 .flowEntry

/-- The dash before the item of a list. -/
def blockEntry? (s : Scanner) : Option Scanner := do
  if !s.inFlow && !s.keyAllowed then none
  else
    let s := s.openBlock s.cursor.column s.count .blockListStart
    return ((← s.dropKey?).allowKey true).mark 1 .blockEntry

/-- The question mark before a key. -/
def explicitKey? (s : Scanner) : Option Scanner := do
  if !s.inFlow && !s.keyAllowed then none
  else
    let s := s.openBlock s.cursor.column s.count .blockMapStart
    return ((← s.dropKey?).allowKey !s.inFlow).mark 1 .key

/-- The colon before a value. -/
def colon? (s : Scanner) : Option Scanner :=
  match s.possibleKey? with
  | some key =>
    let s := (s.insertAt key.position .key).openBlock key.column key.position .blockMapStart
    some (((s.setKey none).allowKey false).mark 1 .value)
  | none =>
    if !s.inFlow && !s.keyAllowed then none
    else
      let s := s.openBlock s.cursor.column s.count .blockMapStart
      some ((s.allowKey !s.inFlow).mark 1 .value)

/-! ## Names and directives -/

/-- The name of an anchor must be followed by a gap or by one of these. -/
def endsName (c : Cursor) : Bool :=
  c.gapAt 0 || c.char?.any fun x =>
    x == '?' || x == ':' || x == ',' || x == ']' || x == '\x7d' || x == '%' || x == '@' || x == '\x60'

/-- An anchor, or a reference to one. -/
def name? (token : String → Token) (s : Scanner) : Option Scanner := do
  let s ← s.noteKey?
  let (name, after) := s.cursor.next.span isNameChar
  if name.isEmpty || !endsName after then none
  else return ((s.allowKey false).emit (token (String.ofList name))).goTo after

/-- A tag must be followed by a gap or, within brackets, by a comma. -/
def tag? (s : Scanner) : Option Scanner := do
  let s ← s.noteKey?
  let (tag, after) ← readTag? s.cursor
  if after.gapAt 0 || (s.inFlow && after.has ',') then
    return ((s.allowKey false).emit (.tag tag)).goTo after
  else none

/-- A directive. -/
def directive? (s : Scanner) : Option Scanner := do
  let s ← (s.closeBlocks none).dropKey?
  let (directive, after) ← readDirective? s.cursor
  return ((s.allowKey false).emit (.directive directive)).goTo after

/-! ## Scalars -/

/-- A scalar between quotation marks. -/
def quoted? (read : Cursor → Option (String × Cursor)) (s : Scanner) : Option Scanner := do
  let s ← s.noteKey?
  let (text, after) ← read s.cursor
  return ((s.allowKey false).emit (.scalar .other text)).goTo after

/-- A scalar without marks. -/
def plainScalar? (s : Scanner) : Option Scanner := do
  let s ← s.noteKey?
  let least := match s.indent? with
    | none => 0
    | some n => n + 1
  let (text, after, brokeLine) ← plain? s.inFlow least s.cursor
  return ((s.allowKey brokeLine).emit (.scalar .plain text)).goTo after

/-- A block of lines. -/
def blockScalar? (folded : Bool) (s : Scanner) : Option Scanner := do
  let s ← s.dropKey?
  let (text, after) ← block? folded s.indent? s.cursor
  return ((s.allowKey true).emit (.scalar (if folded then .other else .literal) text)).goTo after

/-! ## The next token -/

/-- Passes over blanks, comments and line breaks.  Where a key may begin a tab is no blank. -/
def skipGap : Nat → Scanner → Scanner
  | 0, s => s
  | fuel + 1, s =>
    let c := s.cursor
    if c.column == 0 && c.has '\ufeff' then skipGap fuel (s.goTo c.next)
    else if c.has ' ' || ((s.inFlow || !s.keyAllowed) && c.has '\t') then
      skipGap fuel (s.goTo c.next)
    else
      let c := if c.has '#' then c.skipWhile (!isBreak ·) else c
      if c.breakAt 0 then
        skipGap fuel ((s.goTo c.next).allowKey (s.keyAllowed || !s.inFlow))
      else s.goTo c

/-- A scalar without marks begins here. -/
def startsPlain (s : Scanner) : Bool :=
  let c := s.cursor
  let isMark (x : Char) : Bool :=
    isFlowMark x || x == '-' || x == '?' || x == ':' || x == '#' || x == '&' || x == '*' || x == '!'
      || x == '|' || x == '>' || x == '\'' || x == '"' || x == '%' || x == '@' || x == '\x60'
  (!c.gapAt 0 && !c.char?.any isMark) || (c.has '-' && !c.blankAt 1)
    || (!s.inFlow && (c.has '?' || c.has ':') && !c.gapAt 1)

/-- The token that a mark begins, if a mark stands here. -/
def marked? (s : Scanner) : Option (Option Scanner) :=
  let c := s.cursor
  if c.column == 0 && c.has '%' then some s.directive?
  else if c.hasMarks '-' then some (s.documentMark? .documentStart)
  else if c.hasMarks '.' then some (s.documentMark? .documentEnd)
  else if c.has '[' then some (s.openFlow? .flowListStart)
  else if c.has '\x7b' then some (s.openFlow? .flowMapStart)
  else if c.has ']' then some (s.closeFlow? .flowListEnd)
  else if c.has '\x7d' then some (s.closeFlow? .flowMapEnd)
  else if c.has ',' then some s.flowEntry?
  else if c.has '-' && c.gapAt 1 then some s.blockEntry?
  else if c.has '?' && (s.inFlow || c.gapAt 1) then some s.explicitKey?
  else if c.has ':' && (s.inFlow || c.gapAt 1) then some s.colon?
  else if c.has '*' then some (s.name? .alias)
  else if c.has '&' then some (s.name? .anchor)
  else if c.has '!' then some s.tag?
  else if c.has '|' && !s.inFlow then some (s.blockScalar? false)
  else if c.has '>' && !s.inFlow then some (s.blockScalar? true)
  else if c.has '\'' then some (s.quoted? single?)
  else if c.has '"' then some (s.quoted? double?)
  else none

/-- One token further. -/
def step? (s : Scanner) : Option Scanner := do
  let s ← s.dropStaleKeys?
  let s := s.closeBlocks (some s.cursor.column)
  match s.marked? with
  | some next => next
  | none => if s.startsPlain then s.plainScalar? else none

/-- All tokens from here on. -/
def finish? : Nat → Scanner → Option (List Token)
  | 0, _ => none
  | fuel + 1, s =>
    let s := s.skipGap (s.cursor.length + 1)
    if s.cursor.atEnd then do
      let s ← (s.closeBlocks none).dropKey?
      return s.tokens.reverse
    else do finish? fuel (← s.step?)

end Scanner

/-- The tokens of a text. -/
def tokens? (text : String) : Option (List Token) :=
  let cs := text.toList
  if cs.all isAllowed then Scanner.finish? (cs.length + 1) { cursor := .start cs } else none

end BoundsCheck.Yaml
