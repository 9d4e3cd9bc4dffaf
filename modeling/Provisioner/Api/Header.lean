import Provisioner.Text.Utf8

/-!
# Headers

A header has a name, whose case does not matter, and a value of bytes. Some readers of a value want
it to be ASCII.

Methods, names of headers and the parts of media types are tokens: texts of a few characters that no
message of the protocol gives a meaning of their own.
-/

namespace Provisioner.Api

/-- The characters of a token. -/
def isTokenChar (c : Char) : Bool :=
  c.isAlphanum ||
    ['!', '#', '$', '%', '&', '\'', '*', '+', '-', '.', '^', '_', '\x60', '|', '~'].contains c

/-- Whether a text is a token, which is not empty. -/
def isToken (text : List Char) : Bool := !text.isEmpty && text.all isTokenChar

/-- A header. -/
structure Header where
  name : String
  value : List UInt8
deriving DecidableEq, Repr

namespace Header

/-- A header whose value is a text. -/
def ofText (name value : String) : Header := ⟨name, Text.Utf8.encode value.toList⟩

/-- Whether a header has a name, which is given in lower case. -/
def isNamed (h : Header) (name : String) : Bool := h.name.map Char.toLower == name

/-- The bytes that a value may hold. -/
def isValueByte (b : UInt8) : Bool := b = 0x09 || (0x20 ≤ b && b ≠ 0x7F)

/-- Whether a header may be sent. -/
def isWellFormed (h : Header) : Bool := isToken h.name.toList && h.value.all isValueByte

/-- A value as text, if it is ASCII. -/
def asciiText? (value : List UInt8) : Option (List Char) :=
  if value.all fun b => isValueByte b && b < 0x80 then some (value.map fun b => Char.ofNat b.toNat)
  else none

/-- A value with ASCII letters in lower case. -/
def lower (value : List UInt8) : List UInt8 :=
  value.map fun b => if 0x41 ≤ b ∧ b ≤ 0x5A then b + 0x20 else b

end Header

end Provisioner.Api
