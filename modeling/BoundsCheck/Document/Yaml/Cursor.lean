/-!
# Places in a YAML text

A cursor is a place in a text: what is left of the text there, and the line and the column.  A
column is one character, but how far a place is from another is counted in bytes.

* `isBlank`, `isBreak` — the characters that separate tokens and lines.
* `Cursor.next` — one character further; a pair of carriage return and line feed is one character.
-/

set_option autoImplicit false

namespace BoundsCheck.Yaml

/-- The character separates tokens within a line. -/
def isBlank (c : Char) : Bool := c == ' ' || c == '\t'

/-- The character ends a line. -/
def isBreak (c : Char) : Bool :=
  c == '\n' || c == '\r' || c == '\u0085' || c == '\u2028' || c == '\u2029'

/-- The character may be part of the name of an anchor, of a handle or of a directive. -/
def isNameChar (c : Char) : Bool := c.isAlphanum || c == '_' || c == '-'

/-- The character may occur in a text. -/
def isAllowed (c : Char) : Bool :=
  let n := c.toNat
  n == 0x09 || n == 0x0A || n == 0x0D || (0x20 ≤ n && n ≤ 0x7E) || n == 0x85
    || (0xA0 ≤ n && n ≤ 0xFFFD) || 0x10000 ≤ n

/-- The value of a hexadecimal digit. -/
def hexValue? (c : Char) : Option Nat :=
  if c.isDigit then some (c.toNat - '0'.toNat)
  else if 'a' ≤ c ∧ c ≤ 'f' then some (c.toNat - 'a'.toNat + 10)
  else if 'A' ≤ c ∧ c ≤ 'F' then some (c.toNat - 'A'.toNat + 10)
  else none

/-- A place in a text. -/
structure Cursor where
  rest : List Char
  /-- How many characters the whole text has. -/
  length : Nat
  /-- How many bytes come before. -/
  index : Nat := 0
  line : Nat := 0
  column : Nat := 0

namespace Cursor

/-- The beginning of a text. -/
def start (text : List Char) : Cursor := { rest := text, length := text.length }

/-- The character at a place. -/
def char? (c : Cursor) : Option Char := c.rest.head?

/-- The character some places further on. -/
def charAt? (c : Cursor) (offset : Nat) : Option Char := c.rest[offset]?

/-- The text is at its end. -/
def atEnd (c : Cursor) : Bool := c.rest.isEmpty

/-- The character some places further on is the given one. -/
def hasAt (c : Cursor) (offset : Nat) (x : Char) : Bool := c.charAt? offset == some x

/-- The character at a place is the given one. -/
def has (c : Cursor) (x : Char) : Bool := c.hasAt 0 x

/-- The character some places further on separates tokens within a line. -/
def blankAt (c : Cursor) (offset : Nat) : Bool := (c.charAt? offset).any isBlank

/-- The character some places further on ends a line. -/
def breakAt (c : Cursor) (offset : Nat) : Bool := (c.charAt? offset).any isBreak

/-- Some places further on a token ends: at a blank, at the end of a line or of the text. -/
def gapAt (c : Cursor) (offset : Nat) : Bool :=
  match c.charAt? offset with
  | none => true
  | some x => isBlank x || isBreak x

/-- The character at a place, with the usual ends of a line written as a line feed. -/
def lineFeed (x : Char) : Char := if x == '\r' || x == '\u0085' then '\n' else x

/-- The place one character further on. -/
def next (c : Cursor) : Cursor :=
  match c.rest with
  | [] => c
  | x :: rest =>
    if x == '\r' && rest.head? == some '\n' then
      { c with rest := rest.tail, index := c.index + 2, line := c.line + 1, column := 0 }
    else if isBreak x then
      { c with rest, index := c.index + x.utf8Size, line := c.line + 1, column := 0 }
    else { c with rest, index := c.index + x.utf8Size, column := c.column + 1 }

/-- The place some characters further on. -/
def skip : Nat → Cursor → Cursor
  | 0, c => c
  | n + 1, c => skip n c.next

/-- Passes over characters as long as they satisfy a test; the characters come in reverse. -/
def takeWhile (test : Char → Bool) : Nat → Cursor → List Char → List Char × Cursor
  | 0, c, taken => (taken, c)
  | fuel + 1, c, taken =>
    match c.char? with
    | none => (taken, c)
    | some x => if test x then takeWhile test fuel c.next (x :: taken) else (taken, c)

/-- The characters from a place on that satisfy a test, and the place behind them. -/
def span (test : Char → Bool) (c : Cursor) : List Char × Cursor :=
  let (taken, c) := c.takeWhile test c.length []
  (taken.reverse, c)

/-- The place behind the characters that satisfy a test. -/
def skipWhile (test : Char → Bool) (c : Cursor) : Cursor := (c.span test).2

/-- The place behind the rest of a line, if that is no more than blanks and a comment. -/
def lineEnd? (c : Cursor) : Option Cursor :=
  let c := c.skipWhile isBlank
  let c := if c.has '#' then c.skipWhile (!isBreak ·) else c
  if c.atEnd then some c else if c.breakAt 0 then some c.next else none

/-- A line begins here with three marks that stand alone. -/
def hasMarks (c : Cursor) (mark : Char) : Bool :=
  c.column == 0 && c.hasAt 0 mark && c.hasAt 1 mark && c.hasAt 2 mark && c.gapAt 3

/-- A document begins or ends here. -/
def atDocumentMark (c : Cursor) : Bool := c.hasMarks '-' || c.hasMarks '.'

end Cursor

end BoundsCheck.Yaml
