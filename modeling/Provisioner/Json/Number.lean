import Provisioner.Text.Digits

/-!
# JSON numbers

A number is kept as it is written, so nothing is rounded. Its parts are the digits in front of the
point, those behind it, and the exponent. A number written with neither a point nor an exponent is
*whole*.
-/

namespace Provisioner.Json

/-- A number, as it is written. -/
structure Number where
  chars : List Char
deriving DecidableEq, Repr

namespace Number

/-- The digits of decimal notation. -/
def isDigit (c : Char) : Bool := '0' ≤ c && c ≤ '9'

/-- The value of a decimal digit. -/
def digit (c : Char) : Nat := c.toNat - '0'.toNat

/-- How a whole number is written. -/
def ofInt (value : Int) : Number :=
  let digits := Nat.toDigits 10 value.natAbs
  ⟨if value < 0 then '-' :: digits else digits⟩

/-- The number without its sign. -/
def unsigned (n : Number) : List Char :=
  match n.chars with
  | '-' :: rest => rest
  | chars => chars

/-- The digits in front of the point. -/
def units (n : Number) : List Char := n.unsigned.takeWhile isDigit

/-- The point and the exponent with all that belongs to them. -/
def behindUnits (n : Number) : List Char := n.unsigned.dropWhile isDigit

/-- The digits behind the point. -/
def places (n : Number) : List Char :=
  match n.behindUnits with
  | '.' :: rest => rest.takeWhile isDigit
  | _ => []

/-- The exponent as it is written, without its letter. -/
def exponentChars (n : Number) : List Char :=
  (n.behindUnits.dropWhile fun c => c = '.' ∨ isDigit c).drop 1

/-- Written with neither a point nor an exponent. -/
def isWhole (n : Number) : Bool := n.behindUnits.isEmpty

/--
The number as a whole one of 64 bits. A number written with a point or an exponent is none,
whatever its value, and neither is `-0`.
-/
def toInt64? (n : Number) : Option Int64 :=
  if n.isWhole && n.chars != ['-', '0'] then Text.int64? n.chars else none

end Number

end Provisioner.Json
