import Provisioner.Proofs.Store.Recovery

/-!
# Stored inputs are never changed

A statement changes columns of rows, adds a row or deletes some, but none of them touches the inputs
of a row that is there. Only recording a machine brings inputs into the tables.
-/

namespace Provisioner.Database

/-- Each row that is there afterwards was there before, with the same inputs. -/
def KeepsInputs (db db' : Database) : Prop :=
  ∀ id m', db'.find? id = some m' → ∃ m, db.find? id = some m ∧ m'.inputs = m.inputs

theorem KeepsInputs.of_machines {db db' : Database} (h : db'.machines = db.machines) :
    db.KeepsInputs db' := by
  intro id m' hm
  unfold find? at hm ⊢
  rw [h] at hm
  exact ⟨m', hm, rfl⟩

theorem KeepsInputs.refl (db : Database) : db.KeepsInputs db := .of_machines rfl

/-- Rows are changed one by one, but for their ids and inputs. -/
theorem KeepsInputs.of_map {db db' : Database} {f : Machine → Machine}
    (h : db'.machines = db.machines.map f) (hid : ∀ m, (f m).id = m.id)
    (hinputs : ∀ m, (f m).inputs = m.inputs) : db.KeepsInputs db' := by
  intro id m' hm
  have hsame : ((fun m : Machine => m.id == id) ∘ f) = fun m => m.id == id := by
    funext m
    rw [Function.comp_apply, hid]
  unfold find? at hm ⊢
  rw [h, List.find?_map, hsame] at hm
  obtain ⟨m, hold, rfl⟩ := Option.map_eq_some_iff.mp hm
  exact ⟨m, hold, hinputs m⟩

theorem keepsInputs_updateWhere (db : Database) (p : Machine → Bool) {f : Machine → Machine}
    (hid : ∀ m, (f m).id = m.id) (hinputs : ∀ m, (f m).inputs = m.inputs) :
    db.KeepsInputs (db.updateWhere p f) := by
  refine .of_map (f := fun m => if p m then { f m with updatedAt := db.now } else m) rfl ?_ ?_
  · intro m
    simp only
    split
    · exact hid m
    · rfl
  · intro m
    simp only
    split
    · exact hinputs m
    · rfl

theorem keepsInputs_perform (db : Database) (id : MachineId) (call : Write) :
    db.KeepsInputs (db.perform id call).2 := by
  cases call with
  | append line => exact fun other m' hm => ⟨m', (find?_append db id other line) ▸ hm, rfl⟩
  | clearLog => exact .of_machines rfl
  | setStatus status => exact keepsInputs_updateWhere db _ (fun _ => rfl) fun _ => rfl
  | setExtractedOutput value => exact keepsInputs_updateWhere db _ (fun _ => rfl) fun _ => rfl
  | setCredentialRemoved removed => exact keepsInputs_updateWhere db _ (fun _ => rfl) fun _ => rfl

theorem keepsInputs_beginReprovision (db : Database) (id : MachineId) :
    db.KeepsInputs (db.beginReprovision id).2 := by
  unfold beginReprovision
  split
  · split
    · exact keepsInputs_updateWhere db _ (fun _ => rfl) fun _ => rfl
    · exact .refl db
  · exact .refl db

theorem keepsInputs_erase (db : Database) (id : MachineId) : db.KeepsInputs (db.erase id).2 := by
  intro other m' hm
  have hne : other ≠ id := by
    rintro rfl
    rw [find?_erase_self] at hm
    cases hm
  rw [(AgreesOn.erase db hne).row] at hm
  exact ⟨m', hm, rfl⟩

/-- The recovery changes the status of rows only. -/
theorem keepsInputs_failInterrupted (db : Database) (faults : RecoveryFaults) :
    db.KeepsInputs (db.failInterrupted faults).2 := by
  have hafter : db.KeepsInputs db.withoutInterrupted := by
    refine .of_map (machines_withoutInterrupted db) ?_ ?_
    · intro m
      split <;> rfl
    · intro m
      split <;> rfl
  unfold failInterrupted
  simp only
  split
  · exact .refl db
  · split
    · exact .of_machines rfl
    · exact hafter

/-- A row that is set back is handed out with the inputs that it had. -/
theorem inputs_of_beginReprovision {db : Database} {id : MachineId} {row : Machine}
    (h : (db.beginReprovision id).1 = some row) :
    ∃ m, db.find? id = some m ∧ row.id = id ∧ row.inputs = m.inputs := by
  unfold beginReprovision at h
  cases hm : db.find? id with
  | none =>
    rw [hm] at h
    cases h
  | some m =>
    rw [hm] at h
    simp only at h
    split at h
    · have hid : m.id = id := id_of_find? hm
      cases h
      exact ⟨m, rfl, hid, rfl⟩
    · cases h

/-- A machine is recorded with its inputs, and the other rows keep theirs. -/
theorem inputs_of_insert {db db' : Database} {new : NewMachine} {row : Machine}
    (h : db.insert new = .ok (row, db')) :
    row.inputs = .ofInputs new.inputs ∧
      ∀ id m', db'.find? id = some m' →
        (id = new.id ∧ m'.inputs = .ofInputs new.inputs) ∨
          (id ≠ new.id ∧ db.find? id = some m') := by
  have hinsert := h
  unfold insert at h
  split at h
  · cases h
  · cases h
    refine ⟨rfl, fun id m' hm => ?_⟩
    by_cases hid : id = new.id
    · have hnone := (find?_insert hinsert).1
      refine Or.inl ⟨hid, ?_⟩
      subst hid
      unfold find? at hm hnone
      simp only [List.find?_append, hnone, Option.none_or] at hm
      have hrow := List.mem_of_find?_eq_some hm
      rw [List.mem_singleton.mp hrow]
      rfl
    · exact Or.inr ⟨hid, (AgreesOn.insert hinsert hid).row ▸ hm⟩

end Provisioner.Database
