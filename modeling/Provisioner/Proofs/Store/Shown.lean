import Provisioner.Proofs.Store.Writes

/-!
# What a row shows of the last run

The status of a machine and what was extracted from the output of its run are set by different
statements. `Database.shown?` gives the two together, and for each statement a lemma says what
becomes of them.
-/

namespace Provisioner

/-- Whether a write is that of what was extracted. -/
def Write.notesOutput : Write → Bool
  | .setExtractedOutput _ => true
  | _ => false

namespace Database

/-- The word of a machine's status and what was extracted from the output of its run. -/
def shown? (db : Database) (id : MachineId) : Option (String × String) :=
  (db.find? id).map fun m => (m.status, m.extractedOutput)

/-- Nothing extracted is shown of a machine. -/
def Blank (db : Database) (id : MachineId) : Prop :=
  ∀ status output, db.shown? id = some (status, output) → output = ""

variable {db db' : Database} {id other : MachineId}

theorem statusOf?_of_shown {status output : String} (h : db.shown? id = some (status, output)) :
    db.statusOf? id = some status := by
  obtain ⟨m, hm, heq⟩ := Option.map_eq_some_iff.mp h
  cases heq
  rw [statusOf?, hm, Option.map_some]

theorem AgreesOn.shown?_eq (h : AgreesOn id db db') : db'.shown? id = db.shown? id := by
  rw [shown?, h.row, shown?]

theorem shown?_update (db : Database) (id : MachineId) {f : Machine → Machine}
    (hf : ∀ m, (f m).id = m.id) :
    (db.update id f).shown? id =
      (db.find? id).map fun m => ((f m).status, (f m).extractedOutput) := by
  rw [shown?, find?_update_self db id hf, Option.map_map]
  rfl

theorem Blank.of_agrees (h : db.Blank id) (hagrees : AgreesOn id db db') : db'.Blank id := by
  intro status output hshown
  rw [hagrees.shown?_eq] at hshown
  exact h status output hshown

theorem blank_of_shown {status : String} (h : db.shown? id = some (status, "")) : db.Blank id := by
  intro status' output hshown
  rw [h] at hshown
  cases hshown
  rfl

/-- What is shown of a machine after a write for it. -/
theorem shown?_perform (db : Database) (id : MachineId) (call : Write) :
    (db.perform id call).2.shown? id = (db.shown? id).map fun (status, output) =>
      match call with
      | .setStatus status => (status.word, output)
      | .setExtractedOutput output => (status, output)
      | _ => (status, output) := by
  unfold shown?
  rw [Option.map_map]
  cases call with
  | append line => exact congrArg _ (find?_append db id id line)
  | clearLog => rfl
  | setStatus status => exact shown?_update db id fun _ => rfl
  | setExtractedOutput value => exact shown?_update db id fun _ => rfl
  | setCredentialRemoved removed => exact shown?_update db id fun _ => rfl

/-- A write that sets neither leaves what is shown as it is. -/
theorem shown?_perform_of_neither {call : Write} (hstatus : call.setsStatus = false)
    (houtput : call.notesOutput = false) (other : MachineId) :
    (db.perform id call).2.shown? other = db.shown? other := by
  by_cases hid : other = id
  · subst hid
    rw [shown?_perform]
    cases call with
    | setStatus status => cases hstatus
    | setExtractedOutput value => cases houtput
    | _ => exact Option.map_id'
  · exact (AgreesOn.perform db hid call).shown?_eq

/-- Only the write of what was extracted makes it be shown. -/
theorem Blank.perform (h : db.Blank other) {call : Write}
    (hcall : other = id → call.notesOutput = false) : (db.perform id call).2.Blank other := by
  by_cases hid : other = id
  · subst hid
    intro status output hshown
    rw [shown?_perform] at hshown
    obtain ⟨⟨status', output'⟩, hold, heq⟩ := Option.map_eq_some_iff.mp hshown
    have := h status' output' hold
    subst this
    cases call with
    | setExtractedOutput value => cases hcall rfl
    | _ =>
      cases heq
      rfl
  · exact h.of_agrees (AgreesOn.perform db hid call)

theorem shown?_insert {new : NewMachine} {row : Machine} (h : db.insert new = .ok (row, db')) :
    db'.shown? new.id = some (MachineStatus.provisioning.word, "") := by
  have hnone : db.machines.find? (·.id == new.id) = none := (find?_insert h).1
  have hself : ((NewMachine.row new db.now).id == new.id) = true := beq_self_eq_true new.id
  unfold insert at h
  split at h
  · cases h
  · cases h
    unfold shown? find?
    simp only [List.find?_append, hnone, Option.none_or, List.find?_cons_of_pos, hself,
      Option.map_some]
    rfl

theorem shown?_beginReprovision {row : Machine} (h : (db.beginReprovision id).1 = some row) :
    (db.beginReprovision id).2.shown? id = some (MachineStatus.provisioning.word, "") := by
  unfold beginReprovision at h ⊢
  cases hm : db.find? id with
  | none =>
    rw [hm] at h
    cases h
  | some m =>
    rw [hm] at h
    simp only at h ⊢
    by_cases hterminal : isTerminal m = true
    · rw [if_pos hterminal]
      unfold shown?
      rw [find?_update_self, hm]
      · rfl
      · exact fun _ => rfl
    · rw [if_neg hterminal] at h
      cases h

theorem shown?_erase_self (db : Database) (id : MachineId) : (db.erase id).2.shown? id = none := by
  rw [shown?, find?_erase_self, Option.map_none]

end Database

end Provisioner
