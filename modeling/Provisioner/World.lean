import Provisioner.Cloud.Provider
import Provisioner.Hub
import Provisioner.Run.Basic
import Provisioner.Store.Database

/-!
# What requests, runs and viewers share

The world holds the database, the hub, the machines that the provider has, and the runs that are
under way. Runs and requests are carried out in small steps: one statement of the database, one call
of the hub or one call of the provider at a time. Between two steps of one of them, any others can
make theirs.

Whether a statement fails is given from outside. A statement that fails has no effect.
-/

namespace Provisioner

/-- A run that is under way. -/
structure ActiveRun where
  run : Run
  /-- What it has still to do. -/
  script : Script

/-- What requests, runs and viewers share. -/
structure World where
  database : Database
  hub : Hub
  /-- The machines that the provider has. -/
  servers : List MachineId
  runs : List ActiveRun
  /-- Whether the server is about to stop. -/
  draining : Bool

namespace World

/-- Nothing stored, nobody waiting, nothing under way. -/
def empty : World := ⟨.empty, .empty, [], [], false⟩

/-- Wakes the viewers of a machine. -/
def notify (w : World) (id : MachineId) : World := { w with hub := w.hub.notify id }

/-- Makes a write for a machine, unless it fails, and says whether it succeeded. -/
def write (w : World) (id : MachineId) (call : Write) (fault : Option DatabaseFailure) :
    Except DatabaseFailure Unit × World :=
  match fault with
  | some failure => (.error failure, w)
  | none =>
    let (result, database) := w.database.perform id call
    (result, { w with database })

/-- One step of a script for a machine. -/
def scriptStep (w : World) (id : MachineId) (fault : Option DatabaseFailure) :
    Script → Script × World
  | .done => (.done, w)
  | .write call next =>
    let (result, w) := w.write id call fault
    (next result.isOk, w)
  | .notify next => (next, w.notify id)

/-- Starts a run. -/
def start (w : World) (run : Run) (script : Script) : World :=
  { w with runs := w.runs ++ [⟨run, script⟩] }

/-- One step of the n-th run, if there is one. -/
def runStep (w : World) (n : Nat) (fault : Option DatabaseFailure) : World :=
  match w.runs[n]? with
  | some active =>
    let (script, w) := w.scriptStep active.run.machine fault active.script
    { w with runs := w.runs.set n { active with script } }
  | none => w

end World

end Provisioner
