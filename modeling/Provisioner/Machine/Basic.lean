import Provisioner.Inputs.Stored
import Provisioner.Machine.Status
import Provisioner.Time

/-!
# Machines, their snapshots and their log entries
-/

namespace Provisioner

/-- A machine as it is stored. -/
structure Machine where
  id : MachineId
  name : String
  address : String
  /-- The name of the provider that runs it. -/
  provider : String
  /-- The word of its status. -/
  status : String
  /-- Whether the provider's own access key is known to be revoked. -/
  credentialRemoved : Bool
  /-- What the last run extracted from the tool's output. -/
  extractedOutput : String
  /-- The inputs to be replayed by a reprovision. -/
  inputs : StoredInputs
  createdAt : Timestamp
  updatedAt : Timestamp

/-- What a viewer is told of a machine. -/
structure Snapshot where
  id : MachineId
  name : String
  address : String
  status : MachineStatus
  credentialRemoved : Bool
deriving DecidableEq, Repr

namespace Machine

/-- The status that the stored word names. -/
def readStatus (m : Machine) : Except MachineFailure MachineStatus := MachineStatus.read m.status

/-- The snapshot of a machine whose status can be read. -/
def snapshot (m : Machine) : Except MachineFailure Snapshot :=
  m.readStatus.map fun status => ⟨m.id, m.name, m.address, status, m.credentialRemoved⟩

/-- A machine as it is shown. Its inputs are never shown. -/
def toJson (m : Machine) : Json.Value :=
  .record [("id", .int m.id.toInt), ("name", .text m.name), ("address", .text m.address),
    ("provider", .text m.provider), ("status", .text m.status),
    ("credential_removed", .bool m.credentialRemoved),
    ("extracted_output", .text m.extractedOutput), ("created_at", .text m.createdAt.text),
    ("updated_at", .text m.updatedAt.text)]

end Machine

/-- A line of a machine's log. -/
structure LogEntry where
  /-- Greater than that of every entry written before. -/
  id : Int
  machine : MachineId
  line : String
  createdAt : Timestamp
deriving DecidableEq, Repr

/-- A log entry as it is shown. -/
def LogEntry.toJson (e : LogEntry) : Json.Value :=
  .record [("id", .int e.id), ("machine_id", .int e.machine.toInt), ("line", .text e.line),
    ("created_at", .text e.createdAt.text)]

end Provisioner
