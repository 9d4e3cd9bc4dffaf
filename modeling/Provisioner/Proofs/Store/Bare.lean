import Provisioner.Store.Database

/-!
# The store apart from the inputs of its machines

`Database.bare` leaves out the inputs that are stored for the machines and nothing else. No statement
looks at them: on the bare tables each one gives and leaves what it does on the tables themselves,
inputs apart.
-/

namespace Provisioner

/-- The machine without its inputs. -/
def Machine.bare (m : Machine) : Machine := { m with inputs := .ofInputs .empty }

/-- The tables without the inputs of the machines. -/
def Database.bare (db : Database) : Database := { db with machines := db.machines.map Machine.bare }

/-- What is recorded of a new machine, without its inputs. -/
def NewMachine.bare (new : NewMachine) : NewMachine := { new with inputs := .empty }

namespace Machine

variable (m : Machine)

@[simp] theorem bare_bare : m.bare.bare = m.bare := rfl
@[simp] theorem id_bare : m.bare.id = m.id := rfl
@[simp] theorem inputs_bare : m.bare.inputs.inputs = .empty := StoredInputs.inputs_ofInputs .empty

end Machine

namespace Database

variable (db : Database) (id : MachineId)

@[simp] theorem bare_bare : db.bare.bare = db.bare := by
  simp [bare]

@[simp] theorem find?_bare : db.bare.find? id = (db.find? id).map Machine.bare :=
  List.find?_map

@[simp] theorem knows_bare : db.bare.knows id = db.knows id := List.any_map

@[simp] theorem list_bare : db.bare.list = db.list.map Machine.bare :=
  (List.map_mergeSort (f := Machine.bare) fun _ _ _ _ => rfl).symm

@[simp] theorem entriesAfter_bare (after : Int) :
    db.bare.entriesAfter id after = db.entriesAfter id after := rfl

@[simp] theorem snapshot_bare : db.bare.snapshot id = db.snapshot id := by
  rw [snapshot, snapshot, find?_bare]
  cases db.find? id <;> rfl

/-- A new row is recorded unless its id is taken, whatever the inputs are. -/
theorem insert_bare (new : NewMachine) :
    db.bare.insert new.bare = (db.insert new).map fun (row, db) => (row.bare, db.bare) := by
  unfold insert
  rw [knows_bare]
  have hid : new.bare.id = new.id := rfl
  rw [hid]
  split
  · rfl
  · simp [Except.map, bare, NewMachine.bare, NewMachine.row, Machine.bare, tick, now]

@[simp] theorem erase_bare : db.bare.erase id = ((db.erase id).1, (db.erase id).2.bare) := by
  unfold erase
  rw [knows_bare]
  simp only [bare, List.filter_map]
  rfl

/-- Which machines are changed does not hang on their inputs, and these are not changed. -/
theorem updateWhere_bare {p : Machine → Bool} {f : Machine → Machine}
    (hp : ∀ m : Machine, p m.bare = p m) (hf : ∀ m : Machine, f m.bare = (f m).bare) :
    db.bare.updateWhere p f = (db.updateWhere p f).bare := by
  have hrow : ∀ m : Machine, (if p m.bare then { f m.bare with updatedAt := db.now } else m.bare) =
      (if p m then { f m with updatedAt := db.now } else m).bare := by
    intro m
    rw [hp, hf]
    split <;> rfl
  unfold updateWhere bare
  simp only [List.map_map, tick]
  congr 1
  exact List.map_congr_left fun m _ => hrow m

theorem update_bare {f : Machine → Machine} (hf : ∀ m : Machine, f m.bare = (f m).bare) :
    db.bare.update id f = (db.update id f).bare :=
  updateWhere_bare db (fun _ => rfl) hf

@[simp] theorem beginReprovision_bare :
    db.bare.beginReprovision id =
      ((db.beginReprovision id).1.map Machine.bare, (db.beginReprovision id).2.bare) := by
  unfold beginReprovision
  rw [find?_bare]
  cases db.find? id with
  | none => rfl
  | some m =>
    have hterminal : isTerminal m.bare = isTerminal m := rfl
    simp only [Option.map_some, hterminal]
    split
    · rw [update_bare db id (f := restarted) fun _ => rfl]
      rfl
    · rfl

theorem append_bare (line : String) :
    db.bare.append id line = ((db.append id line).1, (db.append id line).2.bare) := by
  unfold append
  rw [knows_bare]
  split <;> rfl

@[simp] theorem perform_bare (call : Write) :
    db.bare.perform id call = ((db.perform id call).1, (db.perform id call).2.bare) := by
  cases call with
  | append line => simp only [perform, append_bare]
  | clearLog => rfl
  | setStatus status => exact Prod.ext rfl (update_bare db id fun _ => rfl)
  | setExtractedOutput value => exact Prod.ext rfl (update_bare db id fun _ => rfl)
  | setCredentialRemoved removed => exact Prod.ext rfl (update_bare db id fun _ => rfl)

end Database

end Provisioner
