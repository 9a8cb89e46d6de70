import BoundsCheck.Document.Yaml.Cursor

/-!
# Tags and directives of a YAML text

A tag is a text of bytes.  Most tags begin with a handle, which stands for what directives say, or
for what it usually stands for.

* `WrittenTag` — a tag as it is written; `readTag?` reads one.
* `Directive` — a line that tells how tags are to be read, or the version; `readDirective?`.
* `Handles` — what handles stand for; `Handles.ofDirectives?`, `Handles.resolve?`.
-/

set_option autoImplicit false

namespace BoundsCheck.Yaml

/-- A tag, or a part of one, in bytes. -/
abbrev TagText := List UInt8

/-- A text of characters of one byte. -/
def TagText.ofAscii (text : String) : TagText := text.toList.map fun c => UInt8.ofNat c.toNat

/-- The characters that the bytes are, if they are any. -/
def TagText.toString? (text : TagText) : Option String := String.fromUTF8? ⟨text.toArray⟩

/-- A tag as it is written: a handle, which stands for the beginning of the tag, and the rest.
Where the handle is empty there is nothing before the rest. -/
structure WrittenTag where
  handle : String
  rest : TagText
deriving DecidableEq, Repr

/-- What a directive says. -/
inductive Directive
  | version (major minor : Nat)
  /-- A handle stands for the given beginning of a tag. -/
  | handle (name : String) (beginning : TagText)
deriving DecidableEq, Repr

/-! ## The text of tags -/

/-- The byte that a percent sign and two digits stand for, and the place behind them. -/
def escapedByte? (c : Cursor) : Option (UInt8 × Cursor) := do
  if !c.has '%' then none
  else
    let high ← hexValue? (← c.charAt? 1)
    let low ← hexValue? (← c.charAt? 2)
    return (UInt8.ofNat (16 * high + low), c.skip 3)

/-- How many bytes of a character follow its first byte. -/
def bytesAfter? (first : UInt8) : Option Nat :=
  if first < 0x80 then some 0
  else if first < 0xC0 then none
  else if first < 0xE0 then some 1
  else if first < 0xF0 then some 2
  else if first < 0xF8 then some 3
  else none

/-- Reads the escaped bytes that follow the first one of a character, onto those before. -/
def bytesAfterFirst? : Nat → Cursor → TagText → Option (TagText × Cursor)
  | 0, c, text => some (text, c)
  | n + 1, c, text => do
    let (byte, c) ← escapedByte? c
    if 0x80 ≤ byte ∧ byte < 0xC0 then bytesAfterFirst? n c (byte :: text) else none

/-- The character stands for itself in a tag. -/
def isTagChar (c : Char) : Bool := isNameChar c || ";/?:@&=+$.!~*'()".toList.contains c

/-- Reads the text of a tag, in reverse. -/
def tagBytes? (test : Char → Bool) : Nat → Cursor → TagText → Option (TagText × Cursor)
  | 0, c, text => some (text, c)
  | fuel + 1, c, text =>
    match c.char? with
    | none => some (text, c)
    | some x =>
      if x == '%' then do
        let (first, after) ← escapedByte? c
        let (text, after) ← bytesAfterFirst? (← bytesAfter? first) after (first :: text)
        tagBytes? test fuel after text
      else if test x then tagBytes? test fuel c.next (UInt8.ofNat x.toNat :: text)
      else some (text, c)

/-- Reads the text of a tag: whether anything is written, the text and the place behind it.  The
text ends before a byte that is zero. -/
def tagText? (test : Char → Bool) (c : Cursor) : Option (Bool × TagText × Cursor) :=
  (tagBytes? test c.length c []).map fun (text, after) =>
    (!text.isEmpty, text.reverse.takeWhile (· != 0), after)

/-- Reads the text of a tag where there has to be one. -/
def someTagText? (test : Char → Bool) (c : Cursor) : Option (TagText × Cursor) := do
  let (written, text, after) ← tagText? test c
  if written then return (text, after) else none

/-- Where a tag stands between marks, commas and square brackets may be part of it. -/
def isWholeTagChar (c : Char) : Bool := isTagChar c || c == ',' || c == '[' || c == ']'

/-! ## Tags -/

/-- Reads a tag.  What could be a handle is one only if an exclamation mark ends it. -/
def readTag? (c : Cursor) : Option (WrittenTag × Cursor) :=
  if c.hasAt 1 '<' then do
    let (text, after) ← someTagText? isWholeTagChar (c.skip 2)
    if after.has '>' then return (⟨"", text⟩, after.next) else none
  else
    let (name, after) := c.next.span isNameChar
    if after.has '!' then do
      let (text, after) ← someTagText? isTagChar after.next
      return (⟨"!" ++ String.ofList name ++ "!", text⟩, after)
    else do
      let (_, text, after) ← tagText? isTagChar c.next
      return (if text.isEmpty then ⟨"", TagText.ofAscii "!"⟩ else ⟨"!", text⟩, after)

/-! ## Directives -/

/-- Reads a part of a version: a number of up to nine digits. -/
def versionNumber? (c : Cursor) : Option (Nat × Cursor) :=
  let (digits, after) := c.span (·.isDigit)
  if digits.isEmpty || 9 < digits.length then none
  else some (digits.foldl (fun n x => 10 * n + (x.toNat - '0'.toNat)) 0, after)

/-- Reads a version. -/
def readVersion? (c : Cursor) : Option (Directive × Cursor) := do
  let (major, c) ← versionNumber? (c.skipWhile isBlank)
  if !c.has '.' then none
  else
    let (minor, c) ← versionNumber? c.next
    return (.version major minor, c)

/-- Reads the name of a handle where nothing else can be. -/
def handleName? (c : Cursor) : Option (String × Cursor) :=
  if !c.has '!' then none
  else
    let (name, after) := c.next.span isNameChar
    if after.has '!' then some ("!" ++ String.ofList name ++ "!", after.next)
    else if name.isEmpty then some ("!", after)
    else none

/-- Reads a handle and what it stands for. -/
def readHandle? (c : Cursor) : Option (Directive × Cursor) := do
  let (name, c) ← handleName? (c.skipWhile isBlank)
  if !c.blankAt 0 then none
  else
    let (text, c) ← someTagText? isWholeTagChar (c.skipWhile isBlank)
    if c.gapAt 0 then return (.handle name text, c) else none

/-- Reads a directive, which takes a whole line. -/
def readDirective? (c : Cursor) : Option (Directive × Cursor) := do
  let (name, c) := c.next.span isNameChar
  if !c.gapAt 0 then none
  else
    let (directive, c) ←
      if name = "YAML".toList then readVersion? c
      else if name = "TAG".toList then readHandle? c
      else none
    return (directive, ← c.lineEnd?)

/-! ## Handles -/

/-- What handles stand for. -/
abbrev Handles := List (String × TagText)

/-- What handles usually stand for. -/
def Handles.usual : Handles :=
  [("!", TagText.ofAscii "!"), ("!!", TagText.ofAscii "tag:yaml.org,2002:")]

/-- The version a directive names is one of those that are known. -/
def Directive.isKnown : Directive → Bool
  | .version major minor => major == 1 && (minor == 1 || minor == 2)
  | .handle _ _ => true

/-- The directive says something about the same as another one. -/
def Directive.conflicts : Directive → Directive → Bool
  | .version _ _, .version _ _ => true
  | .handle name _, .handle other _ => name == other
  | _, _ => false

/-- What handles stand for below some directives.  No two of them must be about the same. -/
def Handles.ofDirectives? : List Directive → Option Handles
  | [] => some usual
  | directive :: directives => do
    let handles ← ofDirectives? directives
    if !directive.isKnown || directives.any directive.conflicts then none
    else
      match directive with
      | .version _ _ => return handles
      | .handle name beginning => return (name, beginning) :: handles

/-- The whole tag that is written. -/
def Handles.resolve? (handles : Handles) (tag : WrittenTag) : Option TagText :=
  if tag.handle.isEmpty then some tag.rest
  else (handles.lookup tag.handle).map (· ++ tag.rest)

end BoundsCheck.Yaml
