import BoundsCheck.Document.Yaml.Cursor

/-!
# Scalars of a YAML text

A scalar is written without marks around it, between quotation marks, or as a block of lines.  In
all but the last form a single line break counts as a blank, and further ones are kept.

* `plain?`, `single?`, `double?`, `block?` — read a scalar of each form.
-/

set_option autoImplicit false

namespace BoundsCheck.Yaml

open Cursor

/-! ## Gaps within scalars -/

/-- Blanks and line breaks between two parts of a scalar.  The blanks count only if there is no
line break. -/
structure Gap where
  /-- Blanks, in reverse. -/
  blanks : List Char := []
  /-- The first line break. -/
  first : Option Char := none
  /-- The further line breaks, in reverse. -/
  more : List Char := []

namespace Gap

/-- The gap has a line break. -/
def breaks (g : Gap) : Bool := g.first.isSome

/-- Adds a line break. -/
def addBreak (g : Gap) (x : Char) : Gap :=
  match g.first with
  | none => { first := some (lineFeed x) }
  | some _ => { g with more := lineFeed x :: g.more }

/-- What the gap counts as, in reverse. -/
def fold (g : Gap) : List Char :=
  match g.first with
  | none => g.blanks
  | some x =>
    if x == '\n' then
      if g.more.isEmpty then [' '] else g.more
    else g.more ++ [x]

end Gap

/-- Reads a gap.  Within a line that is not indented far enough there must not be a tab. -/
def gap? (indent : Option Nat) : Nat → Cursor → Gap → Option (Gap × Cursor)
  | 0, c, g => some (g, c)
  | fuel + 1, c, g =>
    match c.char? with
    | none => some (g, c)
    | some x =>
      if isBlank x then
        if g.breaks then
          if x == '\t' && indent.any (c.column < ·) then none else gap? indent fuel c.next g
        else gap? indent fuel c.next { g with blanks := x :: g.blanks }
      else if isBreak x then gap? indent fuel c.next (g.addBreak x)
      else some (g, c)

/-- Reads the gap at a place. -/
def readGap? (indent : Option Nat) (c : Cursor) : Option (Gap × Cursor) :=
  gap? indent c.length c {}

/-! ## Scalars without marks -/

/-- The character has a meaning of its own within brackets. -/
def isFlowMark (c : Char) : Bool := c == ',' || c == '[' || c == ']' || c == '\x7b' || c == '\x7d'

/-- A scalar without marks ends here: a colon stands alone, or within brackets a mark does. -/
def endsPlain (flow : Bool) (c : Cursor) : Bool :=
  (c.has ':' && c.gapAt 1) || (flow && c.char?.any isFlowMark)

/-- Within brackets a colon must not touch a mark. -/
def colonTouches (flow : Bool) (c : Cursor) : Bool :=
  flow && c.has ':' && (c.charAt? 1).any fun x => isFlowMark x || x == '?'

/-- Reads the characters up to the next gap or the end of the scalar, onto those before. -/
def plainWord? (flow : Bool) : Nat → Cursor → List Char → Option (List Char × Cursor)
  | 0, c, text => some (text, c)
  | fuel + 1, c, text =>
    if c.gapAt 0 then some (text, c)
    else if colonTouches flow c then none
    else if endsPlain flow c then some (text, c)
    else
      match c.char? with
      | none => some (text, c)
      | some x => plainWord? flow fuel c.next (x :: text)

/-- A scalar as far as it was read: its characters in reverse, the place behind it, and whether
that is on another line. -/
structure Plain where
  text : List Char
  cursor : Cursor
  brokeLine : Bool

/-- Reads words and the gaps between them. -/
def plainWords? (flow : Bool) (indent : Nat) : Nat → Cursor → List Char → Gap → Option Plain
  | 0, c, text, g => some ⟨text, c, g.breaks⟩
  | fuel + 1, c, text, g =>
    if c.atDocumentMark || c.has '#' then some ⟨text, c, g.breaks⟩
    else do
      let (word, after) ← plainWord? flow c.length c []
      if word.isEmpty then return ⟨text, after, g.breaks⟩
      let text := word ++ g.fold ++ text
      if after.atEnd || !after.gapAt 0 then return ⟨text, after, false⟩
      let (g, after) ← readGap? (some indent) after
      if !flow && after.column < indent then return ⟨text, after, g.breaks⟩
      plainWords? flow indent fuel after text g

/-- Reads a scalar without marks: its text, the place behind it, and whether that is on another
line. -/
def plain? (flow : Bool) (indent : Nat) (c : Cursor) : Option (String × Cursor × Bool) :=
  (plainWords? flow indent (c.length + 1) c [] {}).map fun p =>
    (String.ofList p.text.reverse, p.cursor, p.brokeLine)

/-! ## Scalars between quotation marks -/

/-- Reads what is between single quotation marks up to the next gap; a doubled mark stands for
itself. -/
def singleWord : Nat → Cursor → List Char → List Char × Cursor
  | 0, c, text => (text, c)
  | fuel + 1, c, text =>
    if c.gapAt 0 then (text, c)
    else if c.has '\'' then
      if c.hasAt 1 '\'' then singleWord fuel (c.skip 2) ('\'' :: text) else (text, c)
    else
      match c.char? with
      | none => (text, c)
      | some x => singleWord fuel c.next (x :: text)

/-- Reads what is between single quotation marks. -/
def singleWords? : Nat → Cursor → List Char → Option (List Char × Cursor)
  | 0, _, _ => none
  | fuel + 1, c, text =>
    if c.atDocumentMark || c.atEnd then none
    else
      let (text, after) := singleWord c.length c text
      if after.has '\'' then some (text, after.next)
      else do
        let (g, after) ← readGap? none after
        singleWords? fuel after (g.fold ++ text)

/-- Reads a scalar between single quotation marks. -/
def single? (c : Cursor) : Option (String × Cursor) :=
  (singleWords? (c.length + 1) c.next []).map fun (text, c) => (String.ofList text.reverse, c)

/-- The character that an escape of one letter stands for. -/
def letterEscape? : Char → Option Char
  | '0' => some '\x00'
  | 'a' => some '\x07'
  | 'b' => some '\x08'
  | 't' => some '\t'
  | '\t' => some '\t'
  | 'n' => some '\n'
  | 'v' => some '\x0b'
  | 'f' => some '\x0c'
  | 'r' => some '\r'
  | 'e' => some '\x1b'
  | ' ' => some ' '
  | '"' => some '"'
  | '/' => some '/'
  | '\\' => some '\\'
  | 'N' => some '\u0085'
  | '_' => some '\u00a0'
  | 'L' => some '\u2028'
  | 'P' => some '\u2029'
  | _ => none

/-- The number of digits after a letter that begins a numbered escape. -/
def codeLength? : Char → Option Nat
  | 'x' => some 2
  | 'u' => some 4
  | 'U' => some 8
  | _ => none

/-- The character with the number that some digits stand for. -/
def codeChar? (digits : List Char) : Option Char := do
  let n ← digits.foldlM (fun n c => (hexValue? c).map (16 * n + ·)) 0
  if n < 0xD800 || (0xDFFF < n && n < 0x110000) then some (Char.ofNat n) else none

/-- Reads an escape: the character it stands for, and the place behind it. -/
def escape? (c : Cursor) : Option (Char × Cursor) := do
  let letter ← c.charAt? 1
  match codeLength? letter with
  | none => return (← letterEscape? letter, c.skip 2)
  | some length =>
    let digits := (c.rest.drop 2).take length
    if digits.length < length then none
    else return (← codeChar? digits, c.skip (2 + length))

/-- Reads what is between double quotation marks up to the next gap.  The last component tells
that an escaped line break was met. -/
def doubleWord? : Nat → Cursor → List Char → Option (List Char × Cursor × Bool)
  | 0, c, text => some (text, c, false)
  | fuel + 1, c, text =>
    if c.gapAt 0 || c.has '"' then some (text, c, false)
    else if c.has '\\' then
      if c.breakAt 1 then some (text, c.skip 2, true)
      else do
        let (x, c) ← escape? c
        doubleWord? fuel c (x :: text)
    else
      match c.char? with
      | none => some (text, c, false)
      | some x => doubleWord? fuel c.next (x :: text)

/-- Reads what is between double quotation marks. -/
def doubleWords? : Nat → Cursor → List Char → Option (List Char × Cursor)
  | 0, _, _ => none
  | fuel + 1, c, text =>
    if c.atDocumentMark || c.atEnd then none
    else do
      let (text, after, joined) ← doubleWord? c.length c text
      if after.has '"' then return (text, after.next)
      let (g, after) ← readGap? none after
      let kept := if joined then (if g.breaks then g.more ++ g.first.toList else []) else g.fold
      doubleWords? fuel after (kept ++ text)

/-- Reads a scalar between double quotation marks. -/
def double? (c : Cursor) : Option (String × Cursor) :=
  (doubleWords? (c.length + 1) c.next []).map fun (text, c) => (String.ofList text.reverse, c)

/-! ## Blocks of lines -/

/-- What becomes of the line breaks at the end of a block. -/
inductive Chomping
  /-- One is kept. -/
  | clip
  /-- None is kept. -/
  | strip
  /-- All are kept. -/
  | keep
deriving DecidableEq

/-- How a block is to be read. -/
structure BlockHeader where
  chomping : Chomping := .clip
  /-- How far the block is indented beyond what is around it, if that is given. -/
  extra : Option Nat := none

/-- Reads how the ends of a block are to be treated. -/
def chomping? (c : Cursor) : Option Chomping :=
  if c.has '+' then some .keep else if c.has '-' then some .strip else none

/-- Reads how far a block is indented. -/
def extra? (c : Cursor) : Option Nat :=
  match c.char? with
  | some x => if x.isDigit then some (x.toNat - '0'.toNat) else none
  | none => none

/-- Reads the marks after the mark of a block, in either order. -/
def blockHeader (c : Cursor) : BlockHeader × Cursor :=
  match chomping? c with
  | some chomping =>
    match extra? c.next with
    | some n => (⟨chomping, some n⟩, c.skip 2)
    | none => (⟨chomping, none⟩, c.next)
  | none =>
    match extra? c with
    | none => ({}, c)
    | some n =>
      match chomping? c.next with
      | some chomping => (⟨chomping, some n⟩, c.skip 2)
      | none => (⟨.clip, some n⟩, c.next)

/-- Passes over the indentation of a line, up to a column if one is given. -/
def skipIndent (limit : Option Nat) : Nat → Cursor → Cursor
  | 0, c => c
  | fuel + 1, c =>
    if c.has ' ' && limit.all (c.column < ·) then skipIndent limit fuel c.next else c

/-- Reads empty lines: their line breaks in reverse, the deepest indentation among them, and the
place behind the indentation of the line that follows.  A tab must not take the place of
indentation. -/
def emptyLines? (limit : Option Nat) :
    Nat → Cursor → Nat → List Char → Option (List Char × Nat × Cursor)
  | 0, c, deepest, found => some (found, deepest, c)
  | fuel + 1, c, deepest, found =>
    let c := skipIndent limit c.length c
    let deepest := max deepest c.column
    if c.has '\t' && limit.all (c.column < ·) then none
    else
      match c.char? with
      | none => some (found, deepest, c)
      | some x =>
        if isBreak x then emptyLines? limit fuel c.next deepest (lineFeed x :: found)
        else some (found, deepest, c)

/-- The state between two lines of a block: the text and the last line breaks in reverse. -/
structure BlockText where
  text : List Char := []
  lineBreak : Option Char := none
  breaks : List Char := []
  /-- The line before began with a blank. -/
  blankBefore : Bool := false

/-- What stands between two lines of a block, in reverse.  In a folded block a single line break
between two lines that begin with no blank counts as a blank. -/
def BlockText.joint (folded blankNow : Bool) (b : BlockText) : List Char :=
  match b.lineBreak with
  | none => b.breaks
  | some x =>
    if folded && x == '\n' && !b.blankBefore && !blankNow then
      if b.breaks.isEmpty then [' '] else b.breaks
    else b.breaks ++ [x]

/-- Reads the lines of a block that are indented up to a column. -/
def blockLines? (folded : Bool) (indent : Nat) :
    Nat → Cursor → BlockText → Option (BlockText × Cursor)
  | 0, c, b => some (b, c)
  | fuel + 1, c, b =>
    if c.column != indent || c.atEnd then some (b, c)
    else
      let blankNow := c.blankAt 0
      let (line, after) := c.span (!isBreak ·)
      let text := line.reverse ++ b.joint folded blankNow ++ b.text
      match after.char? with
      | none => some (⟨text, none, [], blankNow⟩, after)
      | some x => do
        let (breaks, _, after) ← emptyLines? (some indent) (after.length + 1) after.next 0 []
        blockLines? folded indent fuel after ⟨text, some (lineFeed x), breaks, blankNow⟩

/-- The text of a block with the line breaks at its end. -/
def BlockText.finish (chomping : Chomping) (b : BlockText) : String :=
  let ends := match chomping with
    | .strip => []
    | .clip => b.lineBreak.toList
    | .keep => b.breaks ++ b.lineBreak.toList
  String.ofList (ends ++ b.text).reverse

/-- Reads a block of lines, which is indented further than the column `parent` of what is around
it, if anything is. -/
def block? (folded : Bool) (parent : Option Nat) (c : Cursor) : Option (String × Cursor) := do
  let (header, c) := blockHeader c.next
  if header.extra = some 0 then none
  let c ← c.lineEnd?
  let least := match parent with
    | none => 0
    | some n => n + 1
  let given := header.extra.map (parent.getD 0 + ·)
  let (breaks, deepest, c) ← emptyLines? given (c.length + 1) c 0 []
  let indent := given.getD (max (max deepest least) 1)
  let (b, c) ← blockLines? folded indent (c.length + 1) c { breaks }
  return (b.finish header.chomping, c)

end BoundsCheck.Yaml
