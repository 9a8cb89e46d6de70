import BoundsCheck.Document.Basic

/-!
# Reading JSON

The reader takes one character at a time.  Characters make tokens, and tokens make values: the
containers that are open are kept on a stack, so that nothing limits how deep they are nested.

The notation is the strict one: no comments, no trailing commas, nothing after the value.

* `Json.Token`, `Json.Builder` — from tokens to values.
* `Json.Scanner` — from characters to tokens.
* `Json.read?` — the document that is written in a text.
-/

set_option autoImplicit false

namespace BoundsCheck.Json

/-! ## From tokens to values -/

/-- What a text in JSON is made of. -/
inductive Token
  | openList
  | closeList
  | openRecord
  | closeRecord
  | colon
  | comma
  /-- A text; `none` if it is not made of characters. -/
  | text (value : Option String)
  /-- A value that is neither a text nor a container. -/
  | scalar (value : Document)

/-- A container that is still open, its contents in reverse. -/
inductive Frame
  | list (items : List Document)
  /-- A record; `name` is that of the next value, and `readable` tells that all names are made of
  characters. -/
  | record (fields : List (String × Document)) (readable : Bool) (name : String)

/-- What may come next. -/
inductive Expectation
  | value
  | valueOrClose
  | name
  | nameOrClose
  | colon
  | separator
  | nothing
deriving DecidableEq

/-- The containers that are open, and what may come next. -/
structure Builder where
  frames : List Frame := []
  next : Expectation := .value
  /-- The value that was written, once nothing is expected. -/
  result : Document := .null

namespace Builder

/-- Puts a value into the innermost container. -/
def place (d : Document) : List Frame → Builder
  | [] => { next := .nothing, result := d }
  | .list items :: frames => { frames := .list (d :: items) :: frames, next := .separator }
  | .record fields readable name :: frames =>
    { frames := .record ((name, d) :: fields) readable name :: frames, next := .separator }

/-- The value of a text. -/
def textValue : Option String → Document
  | some value => .text value
  | none => .unreadable

/-- The value of a record.  A record with an unreadable name is unreadable. -/
def recordValue (fields : List (String × Document)) (readable : Bool) : Document :=
  if readable then .record fields.reverse else .unreadable

/-- Notes the name of the next value. -/
def nameNext (name : Option String) : List Frame → Option Builder
  | .record fields readable _ :: frames =>
    some {
      frames := .record fields (readable && name.isSome) (name.getD "") :: frames
      next := .colon }
  | _ => none

/-- Goes on after a comma. -/
def afterComma (frames : List Frame) : Option Builder :=
  match frames with
  | .list _ :: _ => some { frames, next := .value }
  | .record _ _ _ :: _ => some { frames, next := .name }
  | [] => none

/-- Takes a token in. -/
def accept (b : Builder) (token : Token) : Option Builder :=
  match b.next, token with
  | .value, .scalar d | .valueOrClose, .scalar d => some (place d b.frames)
  | .value, .text s | .valueOrClose, .text s => some (place (textValue s) b.frames)
  | .value, .openList | .valueOrClose, .openList =>
    some { frames := .list [] :: b.frames, next := .valueOrClose }
  | .value, .openRecord | .valueOrClose, .openRecord =>
    some { frames := .record [] true "" :: b.frames, next := .nameOrClose }
  | .name, .text s | .nameOrClose, .text s => nameNext s b.frames
  | .colon, .colon => some { b with next := .value }
  | .separator, .comma => afterComma b.frames
  | .valueOrClose, .closeList | .separator, .closeList =>
    match b.frames with
    | .list items :: frames => some (place (.list items.reverse) frames)
    | _ => none
  | .nameOrClose, .closeRecord | .separator, .closeRecord =>
    match b.frames with
    | .record fields readable _ :: frames => some (place (recordValue fields readable) frames)
    | _ => none
  | _, _ => none

end Builder

/-! ## Numbers -/

/-- The text is a run of digits. -/
def isDigits (cs : List Char) : Bool := !cs.isEmpty && cs.all Char.isDigit

/-- The text is a run of digits without a leading zero. -/
def isWhole (cs : List Char) : Bool :=
  isDigits cs && (cs.length == 1 || cs.head? != some '0')

/-- The number that a run of digits stands for. -/
def digitsValue (cs : List Char) : Nat := cs.foldl (fun n c => 10 * n + (c.toNat - '0'.toNat)) 0

/-- The character begins an exponent. -/
def isExponentMark (c : Char) : Bool := c == 'e' || c == 'E'

/-- The text is what may follow the mark of an exponent. -/
def isExponent : List Char → Bool
  | '+' :: cs => isDigits cs
  | '-' :: cs => isDigits cs
  | cs => isDigits cs

/-- The text is what may follow the whole part of a number: digits after a point, an exponent, or
both. -/
def isFraction (cs : List Char) : Bool :=
  let isScale : List Char → Bool
    | [] => true
    | c :: cs => isExponentMark c && isExponent cs
  match cs with
  | '.' :: cs => isDigits (cs.takeWhile Char.isDigit) && isScale (cs.dropWhile Char.isDigit)
  | cs => isScale cs

/-- The value of a numeral without its sign. -/
def unsigned? (negative : Bool) (cs : List Char) : Option Document :=
  let whole := cs.takeWhile Char.isDigit
  let rest := cs.dropWhile Char.isDigit
  if !isWhole whole then none
  else if rest.isEmpty then
    if !negative then some (.int (digitsValue whole))
    else if whole = ['0'] then some .unreadable
    else some (.int (-digitsValue whole))
  else if isFraction rest then some .unreadable
  else none

/-- The value of a numeral.  Zero with a sign is not an integer. -/
def number? : List Char → Option Document
  | '-' :: cs => unsigned? true cs
  | cs => unsigned? false cs

/-- The value of a word. -/
def word? (cs : List Char) : Option Document :=
  if cs = ['n', 'u', 'l', 'l'] then some .null
  else if cs = ['t', 'r', 'u', 'e'] then some (.bool true)
  else if cs = ['f', 'a', 'l', 's', 'e'] then some (.bool false)
  else none

/-! ## Texts -/

/-- The character or half character of an escape without a number. -/
def simpleEscape? : Char → Option Nat
  | '"' => some 0x22
  | '\\' => some 0x5C
  | '/' => some 0x2F
  | 'b' => some 0x08
  | 'f' => some 0x0C
  | 'n' => some 0x0A
  | 'r' => some 0x0D
  | 't' => some 0x09
  | _ => none

/-- The value of a hexadecimal digit. -/
def hexValue? (c : Char) : Option Nat :=
  if '0' ≤ c ∧ c ≤ '9' then some (c.toNat - '0'.toNat)
  else if 'a' ≤ c ∧ c ≤ 'f' then some (c.toNat - 'a'.toNat + 10)
  else if 'A' ≤ c ∧ c ≤ 'F' then some (c.toNat - 'A'.toNat + 10)
  else none

/-- The number is the first half of a character. -/
def isHighHalf (n : Nat) : Bool := 0xD800 ≤ n && n ≤ 0xDBFF

/-- The number is the second half of a character. -/
def isLowHalf (n : Nat) : Bool := 0xDC00 ≤ n && n ≤ 0xDFFF

/-- The character that two halves make. -/
def joinHalves (high low : Nat) : Char :=
  Char.ofNat (0x10000 + (high - 0xD800) * 0x400 + (low - 0xDC00))

/-- The characters that some numbers stand for.  A half character needs its other half. -/
def characters? : List Nat → Option (List Char)
  | [] => some []
  | high :: low :: rest =>
    if isHighHalf high then
      if isLowHalf low then (characters? rest).map (joinHalves high low :: ·) else none
    else if isLowHalf high then none
    else (characters? (low :: rest)).map (Char.ofNat high :: ·)
  | [n] => if isHighHalf n || isLowHalf n then none else some [Char.ofNat n]

/-! ## From characters to tokens -/

/-- What the characters read last belong to; numbers, words and texts are kept in reverse. -/
inductive Scanning
  | between
  | number (cs : List Char)
  | word (cs : List Char)
  | text (units : List Nat)
  | escape (units : List Nat)
  /-- An escape that is a number, with the number of digits to come. -/
  | code (units : List Nat) (digits value : Nat)

/-- The reader in the middle of a text. -/
structure Scanner where
  scanning : Scanning := .between
  builder : Builder := {}

namespace Scanner

/-- The character may stand between tokens. -/
def isBlank (c : Char) : Bool := c == ' ' || c == '\n' || c == '\r' || c == '\t'

/-- The character may be part of a number. -/
def isNumeric (c : Char) : Bool := c.isDigit || c == '-' || c == '+' || c == '.' || isExponentMark c

/-- The token that a character is by itself. -/
def punctuation? : Char → Option Token
  | '[' => some .openList
  | ']' => some .closeList
  | '\x7b' => some .openRecord
  | '\x7d' => some .closeRecord
  | ':' => some .colon
  | ',' => some .comma
  | _ => none

/-- Takes a token in. -/
def emit (s : Scanner) (token : Token) : Option Scanner :=
  (s.builder.accept token).map fun builder => { scanning := .between, builder }

/-- Begins a token with a character. -/
def start (s : Scanner) (c : Char) : Option Scanner :=
  if isBlank c then some s
  else if c == '"' then some { s with scanning := .text [] }
  else if c == '-' || c.isDigit then some { s with scanning := .number [c] }
  else if c.isAlpha then some { s with scanning := .word [c] }
  else
    match punctuation? c with
    | some token => s.emit token
    | none => none

/-- Ends a number or a word. -/
def finish (s : Scanner) : Option Scanner :=
  match s.scanning with
  | .between => some s
  | .number cs => (number? cs.reverse).bind fun d => s.emit (.scalar d)
  | .word cs => (word? cs.reverse).bind fun d => s.emit (.scalar d)
  | _ => none

/-- Takes a character in. -/
def step (s : Scanner) (c : Char) : Option Scanner :=
  match s.scanning with
  | .between => s.start c
  | .number cs =>
    if isNumeric c then some { s with scanning := .number (c :: cs) }
    else s.finish.bind (start · c)
  | .word cs =>
    if c.isAlpha then some { s with scanning := .word (c :: cs) }
    else s.finish.bind (start · c)
  | .text units =>
    if c == '"' then s.emit (.text ((characters? units.reverse).map String.ofList))
    else if c == '\\' then some { s with scanning := .escape units }
    else if c.toNat < 0x20 then none
    else some { s with scanning := .text (c.toNat :: units) }
  | .escape units =>
    if c == 'u' then some { s with scanning := .code units 4 0 }
    else (simpleEscape? c).map fun unit => { s with scanning := .text (unit :: units) }
  | .code units digits value =>
    (hexValue? c).map fun digit =>
      let value := 16 * value + digit
      if digits ≤ 1 then { s with scanning := .text (value :: units) }
      else { s with scanning := .code units (digits - 1) value }

end Scanner

/-- The document that is written in a text. -/
def read? (text : String) : Option Document := do
  let scanner ← text.toList.foldlM Scanner.step {}
  let scanner ← scanner.finish
  if scanner.builder.next = .nothing then some scanner.builder.result else none

end BoundsCheck.Json
