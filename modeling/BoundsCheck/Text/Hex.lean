/-!
# Hexadecimal numerals

Lower-case numerals to the base sixteen, bare or after the mark `0x`, and padded to a width.
-/

set_option autoImplicit false

namespace BoundsCheck.Text

/-- The digits of `n` to the base sixteen, without leading zeros. -/
def hexDigits (n : Nat) : List Char := Nat.toDigits 16 n

/-- The numeral of `n` to the base sixteen. -/
def hex (n : Nat) : String := String.ofList (hexDigits n)

/-- The numeral of `n` to the base sixteen after the mark `0x`. -/
def hexMarked (n : Nat) : String := "0x" ++ hex n

/-- The text `s`, with blanks in front that fill it up to `width` characters. -/
def padLeft (width : Nat) (fill : Char) (s : String) : String :=
  String.ofList (List.replicate (width - s.length) fill) ++ s

end BoundsCheck.Text
