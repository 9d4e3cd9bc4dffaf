/-!
# UTF-8

`encode` gives the bytes of a text. In the other direction, bytes are read one at a time. A byte
that cannot continue the character begun before it ends that character's bytes as *ill-formed* and
is then read afresh, so each maximal prefix of a character that nothing completes counts once.
`decode` keeps the ill-formed stretches apart from the characters; the three readings below differ
only in what they make of them:

* `decodeLossy` puts U+FFFD in the place of each,
* `decodeStrict?` accepts none,
* `decodeStart` stops at the first.
-/

namespace Provisioner.Text.Utf8

/-- The bytes of a text. -/
def encode (text : List Char) : List UInt8 := text.flatMap String.utf8EncodeChar

/-- A character of several bytes of which only the first ones were read. -/
structure Begun where
  /-- The bits read so far. -/
  bits : Nat
  /-- How many bytes are still to come after the next one. -/
  more : Nat
  /-- The least byte that may come next. -/
  low : UInt8
  /-- The greatest byte that may come next. -/
  high : UInt8
deriving DecidableEq, Repr

/-- What was read: the characters, with `none` for an ill-formed stretch, last first. -/
structure State where
  read : List (Option Char)
  begun : Option Begun

/-- Nothing read yet. -/
def State.start : State := ⟨[], none⟩

/-- Reads `b` as the first byte of a character. -/
def first (read : List (Option Char)) (b : UInt8) : State :=
  let n := b.toNat
  if n < 0x80 then ⟨some (Char.ofNat n) :: read, none⟩
  else if n < 0xC2 then ⟨none :: read, none⟩
  else if n < 0xE0 then ⟨read, some ⟨n - 0xC0, 0, 0x80, 0xBF⟩⟩
  else if n = 0xE0 then ⟨read, some ⟨0, 1, 0xA0, 0xBF⟩⟩
  else if n = 0xED then ⟨read, some ⟨0xD, 1, 0x80, 0x9F⟩⟩
  else if n < 0xF0 then ⟨read, some ⟨n - 0xE0, 1, 0x80, 0xBF⟩⟩
  else if n = 0xF0 then ⟨read, some ⟨0, 2, 0x90, 0xBF⟩⟩
  else if n < 0xF4 then ⟨read, some ⟨n - 0xF0, 2, 0x80, 0xBF⟩⟩
  else if n = 0xF4 then ⟨read, some ⟨4, 2, 0x80, 0x8F⟩⟩
  else ⟨none :: read, none⟩

/-- Reads one more byte. -/
def State.push (s : State) (b : UInt8) : State :=
  match s.begun with
  | none => first s.read b
  | some c =>
    if c.low ≤ b && b ≤ c.high then
      let bits := c.bits * 64 + (b.toNat - 0x80)
      match c.more with
      | 0 => ⟨some (Char.ofNat bits) :: s.read, none⟩
      | more + 1 => ⟨s.read, some ⟨bits, more, 0x80, 0xBF⟩⟩
    else first (none :: s.read) b

/-- The characters at the end of the bytes; one that was only begun is ill-formed. -/
def State.finish (s : State) : List (Option Char) :=
  match s.begun with
  | none => s.read.reverse
  | some _ => (none :: s.read).reverse

/-- The characters that bytes stand for, with `none` for each ill-formed stretch. -/
def decode (bytes : List UInt8) : List (Option Char) :=
  (bytes.foldl State.push .start).finish

/-- The character that stands for an ill-formed stretch. -/
def replacement : Char := '\uFFFD'

/-- The characters that bytes stand for, with U+FFFD for each ill-formed stretch. -/
def decodeLossy (bytes : List UInt8) : List Char :=
  (decode bytes).map (·.getD replacement)

/-- The characters that bytes stand for, if all of them are well-formed. -/
def decodeStrict? (bytes : List UInt8) : Option (List Char) :=
  let read := decode bytes
  if read.all Option.isSome then some (read.map (·.getD replacement)) else none

/-- The characters in front of the first ill-formed stretch, and whether there is none. -/
def decodeStart (bytes : List UInt8) : List Char × Bool :=
  let read := decode bytes
  ((read.takeWhile Option.isSome).map (·.getD replacement), read.all Option.isSome)

end Provisioner.Text.Utf8
