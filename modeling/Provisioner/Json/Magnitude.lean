import Provisioner.Json.Number

/-!
# How large a number may be

A number can be read as a 64-bit float unless it is too large. The float is not the nearest one;
it comes about in these steps:

1. The digits are read into a significand of 64 bits. Once a digit in front of the point does not
   fit, it and all further ones there are only counted; the places behind the point are then tried
   afresh, up to the first that does not fit.
2. The significand and the power of ten are each rounded to 53 bits.
3. Their product is rounded, and is out of range if no float is that large.

So a number is out of range by what is left of it after the first step, and not by its value.
-/

namespace Provisioner.Json

/-- A magnitude `significand * 10 ^ exponent`. -/
structure Magnitude where
  significand : Nat
  exponent : Int
deriving DecidableEq, Repr

namespace Magnitude

/--
Reads digits behind `significand` until one does not fit; `count` is how many were read before and
then how many were read in all.
-/
def absorb (significand count : Nat) : List Char → Nat × Nat
  | [] => (significand, count)
  | c :: digits =>
    let next := significand * 10 + Number.digit c
    if next < UInt64.size then absorb next (count + 1) digits else (significand, count)

/-- What is written for an exponent counts for no more than this. -/
def exponentBound : Nat := Int32.maxValue.toInt.toNat

/-- The value of the digits of an exponent. -/
def exponentDigits (digits : List Char) : Nat :=
  digits.foldl (fun value c => min exponentBound (value * 10 + Number.digit c)) 0

/-- The value of an exponent as it is written. -/
def writtenExponent : List Char → Int
  | '-' :: digits => -(exponentDigits digits : Int)
  | '+' :: digits => exponentDigits digits
  | digits => exponentDigits digits

/-- What is left of a number after its digits were read. -/
def ofNumber (n : Number) : Magnitude :=
  let (whole, inFront) := absorb 0 0 n.units
  let (significand, behind) := absorb whole 0 n.places
  ⟨significand, n.units.length - inFront - behind + writtenExponent n.exponentChars⟩

/-- A number rounded to its 53 leading bits, where a half goes to the even neighbour. -/
def round53 (n : Nat) : Nat :=
  let unit := Nat.pow 2 (n.log2 + 1 - 53)
  let low := n % unit
  let kept := n / unit
  (if unit < 2 * low ∨ (unit = 2 * low ∧ kept % 2 = 1) then kept + 1 else kept) * unit

/-- The least value that rounds to something greater than every 64-bit float. -/
def doubleBound : Nat := Nat.pow 2 1024 - Nat.pow 2 970

/-- The greatest exponent of a power of ten that is a 64-bit float. -/
def greatestExponent : Nat := 308

/-- Whether the magnitude lies beyond every 64-bit float. -/
def exceedsDouble (m : Magnitude) : Bool :=
  match m.significand, m.exponent with
  | 0, _ => false
  | _, .negSucc _ => false
  | significand, .ofNat exponent =>
    greatestExponent < exponent ||
      doubleBound ≤ round53 significand * round53 (Nat.pow 10 exponent)

end Magnitude

/-- Whether the number is too large to be read as a 64-bit float. -/
def Number.exceedsDouble (n : Number) : Bool := (Magnitude.ofNumber n).exceedsDouble

end Provisioner.Json
