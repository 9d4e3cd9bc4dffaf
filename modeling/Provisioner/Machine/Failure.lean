/-!
# What can be wrong with a request about a machine

Each cause has its message; what a cause leads to is decided by whoever answers the request.
-/

namespace Provisioner

/-- The provider assigns each machine a number of 64 bits. -/
abbrev MachineId := Int64

/-- Why something asked about a machine cannot be done. -/
inductive MachineFailure where
  /-- There is no such `entity`. -/
  | notFound (entity : String) (id : MachineId)
  /-- What was given can never succeed. -/
  | invalid (reason : String)
  /-- What was given is fine, but not in the machine's present state. -/
  | conflict (reason : String)
  /-- Something stored cannot be understood. -/
  | internal (reason : String)
deriving DecidableEq, Repr

/-- The message of a failure. -/
def MachineFailure.message : MachineFailure → String
  | notFound entity id => s!"{entity} {id} not found"
  | invalid reason => "Invalid input: " ++ reason
  | conflict reason => "Conflict: " ++ reason
  | internal reason => "Internal error: " ++ reason

end Provisioner
