import Provisioner.Machine.Status

/-!
# What runs and viewers ask of the store

A run makes *writes*, each of which stands alone; a viewer makes *reads*. Either may fail. A run
goes on whatever becomes of its writes, so their failures are only traced.
-/

namespace Provisioner

/-- A write that a run makes. -/
inductive Write where
  /-- Adds a line to the log. -/
  | append (line : String)
  /-- Deletes all lines of the log. -/
  | clearLog
  | setStatus (status : MachineStatus)
  | setExtractedOutput (value : String)
  | setCredentialRemoved (removed : Bool)
deriving DecidableEq, Repr

/-- The name of a write. -/
def Write.name : Write → String
  | append _ => "append"
  | clearLog => "clear_log"
  | setStatus _ => "set_status"
  | setExtractedOutput _ => "set_extracted_output"
  | setCredentialRemoved _ => "set_credential_removed"

/-- A read that a viewer makes. -/
inductive Read where
  | entriesAfter
  | snapshot
deriving DecidableEq, Repr

/-- The name of a read. -/
def Read.name : Read → String
  | entriesAfter => "entries_after"
  | snapshot => "snapshot"

/-- A failure of the store, with the name of what was asked of it. -/
inductive StoreFailure where
  | write (operation : String) (reason : String)
  | read (operation : String) (reason : String)
deriving DecidableEq, Repr

/-- The message of a failure. -/
def StoreFailure.message : StoreFailure → String
  | write operation reason => s!"storage write failed ({operation}): {reason}"
  | read operation reason => s!"storage read failed ({operation}): {reason}"

end Provisioner
