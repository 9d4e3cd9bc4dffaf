/-!
# Why a run fails
-/

namespace Provisioner

/-- Why a run fails. -/
inductive RunFailure where
  /-- No connection to `target` was accepted. -/
  | unreachable (target : String) (attempts : Nat)
  /--
  The configuration tool did not succeed; without a code it was ended by a signal. The output
  holds what the tool printed, secrets included, and is no part of the message.
  -/
  | toolFailed (code : Option Int) (output : String)
  /-- The configuration tool could not be started, or it could not be learnt how it ended. -/
  | launch (reason : String)
  /-- The inventory for the tool could not be written. -/
  | inventory (reason : String)
deriving DecidableEq, Repr

namespace RunFailure

/-- How the tool ended. -/
def exitText : Option Int → String
  | some code => s!"exit status {code}"
  | none => "termination by signal"

/-- The message of a failure. -/
def message : RunFailure → String
  | unreachable target attempts => s!"SSH not reachable after {attempts} attempts at {target}"
  | toolFailed code _ => "configuration tool exited with " ++ exitText code
  | launch reason => "failed to run configuration tool: " ++ reason
  | inventory reason => "failed to write inventory: " ++ reason

end RunFailure

end Provisioner
