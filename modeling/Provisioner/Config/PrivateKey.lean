import Provisioner.Config.Environment

/-!
# The private key for the connection to machines

The key is a file that is there already, or data that is written to a new file that only its owner
may read. A path that starts with `~/` lies in the home directory if there is one.
-/

namespace Provisioner.Config

/-- The private key. -/
inductive PrivateKey where
  /-- A file, given by the bytes of its path. -/
  | file (path : List UInt8)
  /-- A new file with some text in it. -/
  | generated (content : String)
deriving DecidableEq, Repr

namespace PrivateKey

/-- The permissions of a new file, in octal. -/
def fileMode : String := "600"

/-- The byte of a slash. -/
def slash : UInt8 := 0x2F

/-- The path of `rest` in a directory. A path from the root is in no other directory. -/
def join (directory rest : List UInt8) : List UInt8 :=
  if rest.head? = some slash ∨ directory.isEmpty then rest
  else if directory.getLast? = some slash then directory ++ rest
  else directory ++ slash :: rest

/-- A path with the home directory in the place of a leading `~`. -/
def expandHome (env : Environment) (path : String) : List UInt8 :=
  match path.toList, env.bytes? "HOME" with
  | '~' :: '/' :: rest, some home => join home (String.ofList rest).toUTF8.toList
  | _, _ => path.toUTF8.toList

/-- What is written to the new file for some data: the data, ended by a line feed. -/
def fileContent (data : String) : String :=
  if data.toList.getLast? = some '\n' then data else data ++ "\n"

/-- The key for a path and data, of which the data counts if it is given. -/
def resolve (env : Environment) (path : String) : Option String → PrivateKey
  | some data => .generated (fileContent data)
  | none => .file (expandHome env path)

/-- The path of a file as it is shown. -/
def shown (path : List UInt8) : String := String.ofList (Text.Utf8.decodeLossy path)

end PrivateKey

end Provisioner.Config
