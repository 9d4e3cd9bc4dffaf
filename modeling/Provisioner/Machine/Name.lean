import Provisioner.Machine.Failure
import Provisioner.Text.Digits
import Provisioner.Text.Search

/-!
# Names of machines

A name becomes the name of a host: at most 63 ASCII letters, digits and hyphens, with no hyphen
at an end. A machine that is given no name gets one made of four random bytes.
-/

namespace Provisioner.MachineName

/-- The greatest length of a name. -/
def maximalLength : Nat := 63

/-- What is wrong with a name. -/
inductive Fault where
  | empty
  | tooLong
  /-- It holds a character other than letters, digits and hyphens. -/
  | badCharacter
  /-- It starts or ends with a hyphen. -/
  | outerHyphen
deriving DecidableEq, Repr

/-- The message of a fault. -/
def Fault.message : Fault → String
  | empty => "Machine name must not be empty"
  | tooLong => s!"Machine name must be at most {maximalLength} characters"
  | badCharacter => "Machine name may only contain letters, digits and '-'"
  | outerHyphen => "Machine name must not start or end with '-'"

/-- The characters that a name may hold. -/
def isAllowed (c : Char) : Bool := c.isAlphanum || c == '-'

/-- The first thing that is wrong with a name. The length counts UTF-8 bytes. -/
def fault? (name : String) : Option Fault :=
  let chars := name.toList
  if chars.isEmpty then some .empty
  else if maximalLength < name.utf8ByteSize then some .tooLong
  else if !chars.all isAllowed then some .badCharacter
  else if chars.head? == some '-' || chars.getLast? == some '-' then some .outerHyphen
  else none

/-- Accepts a name or says what is wrong with it. -/
def check (name : String) : Except MachineFailure Unit :=
  match fault? name with
  | none => .ok ()
  | some fault => .error (.invalid fault.message)

/-- What a generated name starts with. -/
def generatedStart : String := "claw-"

/-- The two hexadecimal digits of a byte. -/
def hexPair (b : UInt8) : List Char :=
  [Nat.digitChar (b.toNat / 16), Nat.digitChar (b.toNat % 16)]

/-- The name generated from four random bytes. -/
def generated (a b c d : UInt8) : String :=
  generatedStart ++ String.ofList ([a, b, c, d].flatMap hexPair)

/-- Whether a name could have been generated; the case of its digits does not matter. -/
def looksGenerated (name : String) : Bool :=
  match Text.afterStart? generatedStart.toList name.toList with
  | some rest => rest.length == 8 && rest.all fun c => (Text.hexDigit? c).isSome
  | none => false

end Provisioner.MachineName
