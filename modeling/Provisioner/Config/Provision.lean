import Provisioner.Config.PrivateKey
import Provisioner.Tool.Invocation

/-!
# Settings of provisioning runs
-/

namespace Provisioner.Config

/-- The settings of provisioning runs. -/
structure Provision where
  /-- The directory of the playbook, in which the tool runs. -/
  directory : String
  program : String
  playbook : String
  privateKey : PrivateKey
  /-- An argument that makes the tool say more, or nothing. -/
  verbosity : String
  /-- A silence of this many seconds is worth a line in the log. -/
  stallThreshold : Nat
deriving DecidableEq, Repr

namespace Provision

/-- The data of the key, unless it is blank. -/
def keyData (env : Environment) : Option String :=
  (env.text? "SSH_PRIVATE_KEY_DATA").filter fun data => !(Text.trim data.toList).isEmpty

/-- Reads the settings. -/
def ofEnvironment (env : Environment) : Except Fault Provision := do
  let privateKey :=
    PrivateKey.resolve env (env.textOr "SSH_PRIVATE_KEY" "~/.ssh/id_ed25519") (keyData env)
  let stallThreshold ← env.secondsOr "STALL_WARNING_SECS" 60
  return {
    directory := env.textOr "ANSIBLE_DIR" "./ansible"
    program := env.textOr "ANSIBLE_PROGRAM" "ansible-playbook"
    playbook := env.textOr "ANSIBLE_PLAYBOOK" "playbook.yml"
    privateKey
    verbosity := env.textOr "ANSIBLE_VERBOSITY" "-vv"
    stallThreshold }

/-- How the tool is set up, with the key in the file at `keyPath`. -/
def toolSettings (p : Provision) (keyPath : String) : Tool.Settings :=
  { program := p.program
    playbook := p.playbook
    privateKey := keyPath
    extraArguments := if p.verbosity.isEmpty then [] else [p.verbosity]
    stallThreshold := p.stallThreshold * 1000 }

end Provision

end Provisioner.Config
