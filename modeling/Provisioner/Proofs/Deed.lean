import Provisioner.Proofs.Hub
import Provisioner.Proofs.Run.Course

/-!
# What is done to the world

Requests and runs act on the world by *deeds*: one statement of the database, one call of the hub or
one step of a run each. All that happens beside a viewer is a list of deeds, in any order.
-/

namespace Provisioner

/-- What somebody else than a viewer does to the world. -/
inductive Deed where
  /-- A write for a machine. -/
  | write (id : MachineId) (call : Write)
  /-- A machine is recorded. -/
  | record (new : NewMachine)
  /-- A machine in a terminal status is set back to provisioning. -/
  | restart (id : MachineId)
  /-- A machine is deleted with its log. -/
  | erase (id : MachineId)
  /-- Those who wait for a machine are woken. -/
  | notify (id : MachineId)
  /-- The generation of a machine is removed. -/
  | remove (id : MachineId)
  /-- A run that is under way makes a step, in which a write may fail. -/
  | run (n : Nat) (fault : Option DatabaseFailure)

/-- The world after a deed. -/
def World.deed (w : World) : Deed → World
  | .write id call => (w.write id call none).2
  | .record new =>
    match w.database.insert new with
    | .ok (_, database) => { w with database }
    | .error _ => w
  | .restart id => { w with database := (w.database.beginReprovision id).2 }
  | .erase id => { w with database := (w.database.erase id).2 }
  | .notify id => w.notify id
  | .remove id => { w with hub := w.hub.remove id }
  | .run n fault => w.runStep n fault

namespace World

/-- A deed changes the log as a statement does. -/
theorem logChange_deed (w : World) (d : Deed) : w.database.LogChange (w.deed d).database := by
  cases d with
  | write id call => exact Database.logChange_perform w.database id call
  | record new =>
    simp only [deed]
    cases h : w.database.insert new with
    | ok result => exact Database.logChange_insert h
    | error failure => exact .refl w.database
  | restart id => exact Database.logChange_beginReprovision w.database id
  | erase id => exact Database.logChange_erase w.database id
  | notify id => exact .refl w.database
  | remove id => exact .refl w.database
  | run n fault =>
    have hstep := runStep_spec w n fault
    simp only [deed]
    generalize w.runStep n fault = w' at hstep ⊢
    cases hstep with
    | idle => exact .refl w.database
    | failed => exact .refl w.database
    | written => exact Database.logChange_perform w.database _ _
    | notified => exact .refl w.database

/-- A deed makes at most one call of the hub. -/
theorem hubChange_deed (w : World) (d : Deed) : w.hub.Change (w.deed d).hub := by
  cases d with
  | write id call => exact .same
  | record new =>
    simp only [deed]
    cases w.database.insert new with
    | ok result => exact .same
    | error failure => exact .same
  | restart id => exact .same
  | erase id => exact .same
  | notify id => exact .notify id
  | remove id => exact .remove id
  | run n fault =>
    have hstep := runStep_spec w n fault
    simp only [deed]
    generalize w.runStep n fault = w' at hstep ⊢
    cases hstep with
    | idle => exact .same
    | failed => exact .same
    | written => exact .same
    | notified => exact .notify _

end World

end Provisioner
