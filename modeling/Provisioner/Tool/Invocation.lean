import Provisioner.Inputs.Parameters

/-!
# How the configuration tool is invoked

The tool is given a playbook, an inventory with the one machine, the extra arguments that were
set up, and the inputs as one JSON object unless there are none.
-/

namespace Provisioner.Tool

/-- How the tool is set up. -/
structure Settings where
  /-- The program to start. -/
  program : String
  /-- The first argument. -/
  playbook : String
  /-- The path of the key with which the tool connects to the machine. -/
  privateKey : String
  extraArguments : List String
  /-- A silence of this many milliseconds is worth a line in the log. -/
  stallThreshold : Nat
deriving DecidableEq, Repr

/-- A program with its arguments. -/
structure Invocation where
  program : String
  arguments : List String
deriving DecidableEq, Repr

/-- The inventory with the machine at `address`. -/
def inventory (settings : Settings) (address : String) : String :=
  s!"[openclaw]\n{address} ansible_user=root ansible_ssh_private_key_file={settings.privateKey} " ++
    "ansible_ssh_common_args='-o StrictHostKeyChecking=no'\n"

/-- What is added to the environment of the tool. -/
def environment : List (String × String) :=
  [("ANSIBLE_FORCE_COLOR", "false"), ("ANSIBLE_HOST_KEY_CHECKING", "False")]

/-- The argument that hands over the inputs. -/
def inputArguments (inputs : Inputs) : List String :=
  match inputs.parameters with
  | some parameters => ["--extra-vars", parameters.render]
  | none => []

/-- The invocation of the tool with an inventory that was written to a file. -/
def invocation (settings : Settings) (inventoryPath : String) (inputs : Inputs) : Invocation :=
  { program := settings.program
    arguments := settings.playbook :: "-i" :: inventoryPath :: settings.extraArguments ++
      inputArguments inputs }

/-- Whether a text holds a character that no argument can hold. -/
def holdsNul (text : String) : Bool := text.toList.contains '\x00'

/-- Why the tool cannot be started. -/
inductive LaunchFault where
  /-- There is no such program or working directory. -/
  | missing
  /-- There is a file of that name that is no program. -/
  | notExecutable
  /-- The program or an argument holds a NUL character. -/
  | nul
  | other (reason : String)
deriving DecidableEq, Repr

/-- The message of a fault. -/
def LaunchFault.message : LaunchFault → String
  | missing => "No such file or directory (os error 2)"
  | notExecutable => "Permission denied (os error 13)"
  | nul => "nul byte found in provided data"
  | other reason => reason

/-- What keeps an invocation from being tried at all. -/
def Invocation.fault? (i : Invocation) : Option LaunchFault :=
  if holdsNul i.program || i.arguments.any holdsNul then some .nul else none

end Provisioner.Tool
