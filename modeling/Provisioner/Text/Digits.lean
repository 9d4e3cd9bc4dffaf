/-!
# Digits and whole numbers

A whole number is written as one or more ASCII digits, any number of zeros in front included,
with an optional sign; an unsigned number may have a plus sign only. A number outside its range
is refused. Hexadecimal digits are read one by one.
-/

namespace Provisioner.Text

/-- The value of an ASCII digit. -/
def digit? (c : Char) : Option Nat :=
  if '0' ≤ c ∧ c ≤ '9' then some (c.toNat - '0'.toNat) else none

/-- The value of a hexadecimal digit, in either case. -/
def hexDigit? (c : Char) : Option Nat :=
  let n := c.toNat
  if 0x30 ≤ n && n ≤ 0x39 then some (n - 0x30)
  else if 0x41 ≤ n && n ≤ 0x46 then some (n - 0x41 + 10)
  else if 0x61 ≤ n && n ≤ 0x66 then some (n - 0x61 + 10)
  else none

/-- The value of the digits of `text` behind digits worth `value`. -/
def digitsFrom? (value : Nat) : List Char → Option Nat
  | [] => some value
  | c :: text =>
    match digit? c with
    | some d => digitsFrom? (value * 10 + d) text
    | none => none

/-- The value of a text of one or more digits. -/
def digits? : List Char → Option Nat
  | [] => none
  | text => digitsFrom? 0 text

/-- Reads an unsigned number of at most `greatest`. -/
def unsigned? (greatest : Nat) (text : List Char) : Option Nat :=
  let magnitude := match text with
    | '+' :: rest => digits? rest
    | _ => digits? text
  magnitude.filter (· ≤ greatest)

/-- Reads a signed 64-bit number. -/
def int64? (text : List Char) : Option Int64 :=
  let value : Option Int := match text with
    | '-' :: rest => (digits? rest).map (- Int.ofNat ·)
    | '+' :: rest => (digits? rest).map Int.ofNat
    | _ => (digits? text).map Int.ofNat
  (value.filter fun v => Int64.minValue.toInt ≤ v ∧ v ≤ Int64.maxValue.toInt).map Int64.ofInt

end Provisioner.Text
