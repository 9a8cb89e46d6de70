import BoundsCheck.Text.Hex

/-!
# Quotients in double precision

The quotient of two counters is reported as the bit pattern of a double: each counter is first
rounded to a double, then the quotient of the two is rounded, always to the nearest and on a tie to
the even neighbour.  All of it is done in exact integer arithmetic.

* `Dyadic` — the number `mantissa * 2 ^ exponent`.
* `roundQuotient` — the double nearest to a quotient of positive integers.
* `quotientBits` — the bit pattern of the quotient of two counters.
-/

set_option autoImplicit false

namespace BoundsCheck.Number

/-- The integer nearest to `num / den`, of two equally near ones the even one. -/
def roundDiv (num den : Nat) : Nat :=
  let quotient := num / den
  let twice := 2 * (num % den)
  if twice < den then quotient
  else if twice = den then quotient + quotient % 2
  else quotient + 1

/-- How many bits the numeral of `n` to the base two has. -/
def bitLength (n : Nat) : Nat := if n = 0 then 0 else n.log2 + 1

/-- The number `mantissa * 2 ^ exponent`. -/
structure Dyadic where
  mantissa : Nat
  exponent : Int
deriving DecidableEq, Repr

/-- The nearest number to `num / den` that has a mantissa of 53 bits, for positive `num` and `den`.
The scale is chosen so that the quotient lies in `[2 ^ 52, 2 ^ 53)`. -/
def roundQuotient (num den : Nat) : Dyadic :=
  let guess : Int := (bitLength num : Int) - bitLength den - 53
  let scaled (e : Int) : Nat × Nat := (num * Nat.pow 2 (-e).toNat, den * Nat.pow 2 e.toNat)
  let exponent := if (scaled guess).1 < Nat.pow 2 53 * (scaled guess).2 then guess else guess + 1
  let mantissa := roundDiv (scaled exponent).1 (scaled exponent).2
  if mantissa = Nat.pow 2 53 then ⟨Nat.pow 2 52, exponent + 1⟩ else ⟨mantissa, exponent⟩

/-- The bit pattern of a double with a mantissa of 53 bits in the normal range; `0` for zero. -/
def Dyadic.bits (d : Dyadic) : Nat :=
  if d.mantissa = 0 then 0
  else (d.exponent + 1075).toNat * Nat.pow 2 52 + (d.mantissa - Nat.pow 2 52)

/-- The counter `n` rounded to a double, as a fraction. -/
def roundCounter (n : Nat) : Nat × Nat :=
  if n = 0 then (0, 1)
  else
    let d := roundQuotient n 1
    (d.mantissa * Nat.pow 2 d.exponent.toNat, Nat.pow 2 (-d.exponent).toNat)

/-- The bit pattern of the double nearest to the quotient of the doubles nearest to `num` and
`den`; `den` is positive. -/
def quotientBits (num den : Nat) : Nat :=
  let (a, b) := roundCounter num
  let (c, d) := roundCounter den
  if a = 0 then 0 else (roundQuotient (a * d) (b * c)).bits

/-- A bit pattern as sixteen hexadecimal digits. -/
def bitsText (bits : Nat) : String := Text.padLeft 16 '0' (Text.hex bits)

end BoundsCheck.Number
