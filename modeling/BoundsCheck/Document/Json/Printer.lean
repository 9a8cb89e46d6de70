import BoundsCheck.Document.Basic
import BoundsCheck.Text.Hex

/-!
# Writing JSON

* `Json.render` — a document on one line.
* `Json.renderPretty` — a document with one value on each line, two blanks for each level.
-/

set_option autoImplicit false

namespace BoundsCheck.Json

/-- How a character is written between quotation marks. -/
def escape (c : Char) : String :=
  if c = '"' then "\\\""
  else if c = '\\' then "\\\\"
  else if c = '\n' then "\\n"
  else if c = '\r' then "\\r"
  else if c = '\t' then "\\t"
  else if c = '\x08' then "\\b"
  else if c = '\x0c' then "\\f"
  else if c.toNat < 0x20 then "\\u" ++ Text.padLeft 4 '0' (Text.hex c.toNat)
  else String.singleton c

/-- A text between quotation marks. -/
def quote (s : String) : String := "\"" ++ String.join (s.toList.map escape) ++ "\""

/-- A value that holds no others.  What cannot be read cannot be written either. -/
def renderScalar : Document → String
  | .bool value => toString value
  | .int value => toString value
  | .text value => quote value
  | _ => "null"

mutual

/-- A document on one line. -/
def render : Document → String
  | .list items => "[" ++ ",".intercalate (renderItems items) ++ "]"
  | .record fields => "\x7b" ++ ",".intercalate (renderFields fields) ++ "\x7d"
  | d => renderScalar d

/-- The values of a list. -/
def renderItems : List Document → List String
  | [] => []
  | d :: ds => render d :: renderItems ds

/-- The fields of a record. -/
def renderFields : List (String × Document) → List String
  | [] => []
  | (name, d) :: fields => (quote name ++ ":" ++ render d) :: renderFields fields

end

/-- The line break before something at a level. -/
def newline (level : Nat) : String := "\n" ++ String.ofList (List.replicate (2 * level) ' ')

/-- A container at a level, with its contents on lines of their own. -/
def enclose (opening closing : String) (level : Nat) : List String → String
  | [] => opening ++ closing
  | contents =>
    opening ++ newline (level + 1) ++ ("," ++ newline (level + 1)).intercalate contents
      ++ newline level ++ closing

mutual

/-- A document at a level. -/
def renderAt (level : Nat) : Document → String
  | .list items => enclose "[" "]" level (renderItemsAt (level + 1) items)
  | .record fields => enclose "\x7b" "\x7d" level (renderFieldsAt (level + 1) fields)
  | d => renderScalar d

/-- The values of a list at a level. -/
def renderItemsAt (level : Nat) : List Document → List String
  | [] => []
  | d :: ds => renderAt level d :: renderItemsAt level ds

/-- The fields of a record at a level. -/
def renderFieldsAt (level : Nat) : List (String × Document) → List String
  | [] => []
  | (name, d) :: fields => (quote name ++ ": " ++ renderAt level d) :: renderFieldsAt level fields

end

/-- A document with one value on each line. -/
def renderPretty (d : Document) : String := renderAt 0 d

end BoundsCheck.Json
