import BoundsCheck.Text.Hex
import BoundsCheck.Text.Printable

/-!
# Quoted text

A text between quotation marks, in which quotation marks, backslashes and all characters that do
not show up as marks of their own are written as escapes.

* `escape` — how a character is written.
* `quoted` — a text between quotation marks.
* `quotedList` — a list of such texts.
-/

set_option autoImplicit false

namespace BoundsCheck.Text

/-- How a character is written between quotation marks. -/
def escape (c : Char) : String :=
  if c = '"' then "\\\""
  else if c = '\\' then "\\\\"
  else if c = '\n' then "\\n"
  else if c = '\t' then "\\t"
  else if c = '\r' then "\\r"
  else if c = '\x00' then "\\0"
  else if isPrintable c then String.singleton c
  else "\\u\x7b" ++ hex c.toNat ++ "\x7d"

/-- A text between quotation marks. -/
def quoted (s : String) : String := "\"" ++ String.join (s.toList.map escape) ++ "\""

/-- A list of texts, each between quotation marks. -/
def quotedList (items : List String) : String := "[" ++ ", ".intercalate (items.map quoted) ++ "]"

end BoundsCheck.Text
