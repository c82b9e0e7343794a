/-!
# How large a number may be

The digits of a number are read as a significand of at most 64 bits and a power of ten. A digit that
no longer fits into the significand is dropped; in front of the point it raises the power instead.

Significand and power are rounded to binary64 and then multiplied. The number is too large when the
product is not finite, so that the digits which were dropped and the two roundings decide what
becomes of a number at the very edge.
-/

namespace BeanProcessing.Json

/-- Whether a character is a decimal digit. -/
def isDigit (c : Char) : Bool := '0' ≤ c && c ≤ '9'

/-- The value of a decimal digit. -/
def digitValue (c : Char) : Nat := c.toNat - '0'.toNat

/-- The number that decimal digits spell. -/
def ofDigits (digits : List Char) : Nat :=
  digits.foldl (fun n c => n * 10 + digitValue c) 0

/-- A significand and a power of ten: `significand * 10 ^ exponent`. -/
structure Magnitude where
  significand : Nat
  exponent : Int

namespace Magnitude

/-- Reads on with the digits in front of the point, `n` being what has been read so far. -/
def ofWhole (n : Nat) : List Char → Magnitude
  | [] => { significand := n, exponent := 0 }
  | c :: digits =>
    let next := n * 10 + digitValue c
    if next < Nat.pow 2 64 then ofWhole next digits
    else { significand := n, exponent := digits.length + 1 }

/-- Reads on with the digits behind the point. -/
def addFraction (m : Magnitude) : List Char → Magnitude
  | [] => m
  | c :: digits =>
    let next := m.significand * 10 + digitValue c
    if next < Nat.pow 2 64 then
      addFraction { significand := next, exponent := m.exponent - 1 } digits
    else m

/-- The magnitude of the number with a spelling. -/
def ofSpelling (spelling : List Char) : Magnitude :=
  let isExponentMark := fun c => c == 'e' || c == 'E'
  let front := spelling.takeWhile (fun c => !isExponentMark c)
  let back := spelling.dropWhile (fun c => !isExponentMark c)
  let whole := (front.takeWhile (· != '.')).filter isDigit
  let fraction := (front.dropWhile (· != '.')).filter isDigit
  let power : Int := ofDigits (back.filter isDigit)
  let m := (ofWhole 0 whole).addFraction fraction
  { m with exponent := if back.contains '-' then m.exponent - power else m.exponent + power }

/-- The number nearest to `n` that has 53 binary digits followed by zeros, and of two such numbers
the one whose last digit is even: `n` as a binary64. -/
def rounded (n : Nat) : Nat :=
  let unit := Nat.pow 2 (n.log2 + 1 - 53)
  let quotient := n / unit
  let twice := 2 * (n % unit)
  if unit < twice || (twice == unit && quotient % 2 == 1) then (quotient + 1) * unit
  else quotient * unit

/-- The least natural number that is not finite as a binary64: half a unit beyond the largest. -/
def limit : Nat := Nat.pow 2 1024 - Nat.pow 2 970

/-- Whether the number is too large. -/
def isTooLarge (m : Magnitude) : Bool :=
  if m.significand = 0 || m.exponent < 0 then false
  else if 308 < m.exponent then true
  else limit ≤ rounded m.significand * rounded (Nat.pow 10 m.exponent.toNat)

end Magnitude

end BeanProcessing.Json
