import Provisioner.Machine.Failure

/-!
# Cloud providers

A provider makes machines and deletes them. A machine that was made has an address. Deleting a
machine that the provider does not have is a failure.
-/

namespace Provisioner

/-- A machine that the provider has made. -/
structure Server where
  /-- The number that the provider has given it. -/
  id : MachineId
  name : String
  address : String
deriving DecidableEq, Repr

/-- Why the provider does not do what it is asked. -/
inductive ProviderFailure where
  /-- A request could not be made, or its answer not be read (`undecodable`). -/
  | request (reason : String) (undecodable : Bool)
  /-- The provider refuses. -/
  | refused (status : Nat) (body : String)
  /-- What the provider began ended in an error. -/
  | actionFailed (action : Int64) (reason : String)
  /-- What the provider began did not end in time. -/
  | actionUnfinished (action : Int64) (seconds : Nat)
  /-- The machine was made but has no address. -/
  | noAddress (id : MachineId)
deriving DecidableEq, Repr

/-- The message of a failure. -/
def ProviderFailure.message : ProviderFailure → String
  | request reason _ => "HTTP request failed: " ++ reason
  | refused status body => s!"Provider API error ({status}): {body}"
  | actionFailed action reason => s!"Provider action {action} failed: {reason}"
  | actionUnfinished action seconds => s!"Provider action {action} did not finish within {seconds}s"
  | noAddress id => s!"Machine {id} has no public IPv4 address"

end Provisioner
