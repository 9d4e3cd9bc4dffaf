import Provisioner.Run.Script
import Provisioner.Store.Database
import Provisioner.Store.Faults

/-!
# Rehearsing scripts

A script is rehearsed on tables of its own, with failures by plan, and every write that it makes is
recorded: whether it failed, and whether the viewers were woken since the write before. The log of a
rehearsal takes lines for any machine.

Rehearsals serve to run examples only, and nothing is proved about them: results about scripts are
about `Script.trace` and about the steps that they make in a world.
-/

namespace Provisioner

/-- The record of one write. -/
structure WriteRecord where
  write : Write
  failed : Bool
  /-- Whether the viewers were woken since the record before. -/
  woke : Bool
deriving DecidableEq, Repr

/-- The tables, the plan and the records. -/
structure Rehearsal where
  database : Database
  faults : FaultPlan
  /-- Whether the viewers were woken since the last record. -/
  woke : Bool
  /-- The records, last first. -/
  records : List WriteRecord

namespace Rehearsal

/-- A rehearsal with nothing recorded. -/
def start (database : Database) (faults : FaultPlan) : Rehearsal := ⟨database, faults, false, []⟩

/-- The tables after a write that does not fail. -/
def store (id : MachineId) (w : Write) (db : Database) : Database :=
  match w with
  | .append line => (db.addEntry id line).2
  | w => (db.perform id w).2

/-- Makes and records a write, and says whether it succeeded. -/
def write (id : MachineId) (w : Write) (r : Rehearsal) : Bool × Rehearsal :=
  let (failed, faults) := r.faults.next w.name
  (!failed,
    { database := if failed then r.database else store id w r.database
      faults
      woke := false
      records := ⟨w, failed, r.woke⟩ :: r.records })

/-- Wakes the viewers. -/
def wake (r : Rehearsal) : Rehearsal := { r with woke := true }

/-- Rehearses a script for a machine, with records of its own. -/
def play (r : Rehearsal) (id : MachineId) (script : Script) : Rehearsal :=
  script.execute (write id) wake (start r.database r.faults)

end Rehearsal

end Provisioner
