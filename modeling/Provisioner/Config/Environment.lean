import Provisioner.Text.Blank
import Provisioner.Text.Digits
import Provisioner.Text.Utf8

/-!
# The environment of the process

Settings are read from variables of the environment. A variable whose value is not UTF-8 counts
as unset. A setting that has no default must be set, and one that is a number must read as one.
-/

namespace Provisioner.Config

/-- The variables that are set, with the bytes of their values. -/
structure Environment where
  entries : List (String × List UInt8)
deriving DecidableEq, Repr

/-- What is wrong with the settings. -/
inductive Fault where
  /-- The variable must be set. -/
  | unset (name : String)
  /-- The variable does not read as a number of some kind. -/
  | notNumber (name : String) (kind : String)
deriving DecidableEq, Repr

/-- The message of a fault. -/
def Fault.message : Fault → String
  | unset name => s!"{name} must be set"
  | notNumber name kind => s!"{name} must be {kind}"

namespace Environment

/-- The bytes of a variable. -/
def bytes? (env : Environment) (name : String) : Option (List UInt8) := env.entries.lookup name

/-- The text of a variable. -/
def text? (env : Environment) (name : String) : Option String :=
  ((env.bytes? name).bind Text.Utf8.decodeStrict?).map String.ofList

/-- The text of a variable, or its default. -/
def textOr (env : Environment) (name default : String) : String := (env.text? name).getD default

/-- The text of a variable that has no default. -/
def required (env : Environment) (name : String) : Except Fault String :=
  match env.text? name with
  | some text => .ok text
  | none => .error (.unset name)

/-- An unsigned number of at most `greatest`, which `kind` describes. -/
def unsignedOr (env : Environment) (name : String) (greatest : Nat) (kind : String)
    (default : Nat) : Except Fault Nat :=
  match env.text? name with
  | none => .ok default
  | some text =>
    match Text.unsigned? greatest text.toList with
    | some value => .ok value
    | none => .error (.notNumber name kind)

/-- A number of seconds. -/
def secondsOr (env : Environment) (name : String) (default : Nat) : Except Fault Nat :=
  env.unsignedOr name (UInt64.size - 1) "a valid u64" default

end Environment

end Provisioner.Config
