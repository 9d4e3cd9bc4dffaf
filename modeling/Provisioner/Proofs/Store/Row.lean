import Provisioner.Proofs.Store.Log

/-!
# The row of one machine under the statements of the database

`find?_update` says what an update does to a row, and `find?_of_snapshot` what a snapshot shows of
it. `AgreesOn` relates two databases that show the same row and the same entries of a machine; every
statement for another machine keeps to it.

Who may write for a machine hangs on the word of its status alone (`statusOf?`). Only few
statements change it.
-/

namespace Provisioner

/-! ## Kinds of writes -/

/-- Whether a write adds to what is known of a machine in the middle of a run. -/
def Write.isProgress : Write → Bool
  | .append _ | .setExtractedOutput _ | .setCredentialRemoved _ => true
  | .clearLog | .setStatus _ => false

/-- The line that a write is to store. -/
def Write.line? : Write → Option String
  | .append line => some line
  | _ => none

/-- Whether a write is that of a status. -/
def Write.setsStatus : Write → Bool
  | .setStatus _ => true
  | _ => false

theorem Write.setsStatus_of_isProgress {call : Write} (h : call.isProgress = true) :
    call.setsStatus = false := by
  cases call <;> first | rfl | cases h

namespace Database

/-! ## Rows -/

/-- An update changes the row of its machine and no other. -/
theorem find?_update (db : Database) (id other : MachineId) {f : Machine → Machine}
    (hf : ∀ m, (f m).id = m.id) :
    (db.update id f).find? other =
      if other = id then (db.find? other).map fun m => { f m with updatedAt := db.now }
      else db.find? other := by
  have hsame : ((fun m : Machine => m.id == other) ∘ fun m : Machine =>
      if m.id == id then { f m with updatedAt := db.now } else m) = fun m => m.id == other := by
    funext m
    simp only [Function.comp_apply]
    split
    · rw [hf]
    · rfl
  unfold update updateWhere find?
  rw [List.find?_map, hsame]
  cases h : db.machines.find? (·.id == other) with
  | none => simp
  | some m =>
    have hid : m.id = other := by
      have := List.find?_some h
      rwa [beq_iff_eq] at this
    by_cases ho : other = id
    · have heq : (m.id == id) = true := by rw [hid, ho, beq_self_eq_true]
      rw [if_pos ho, Option.map_some, Option.map_some, if_pos heq]
    · have hne : ¬(m.id == id) = true := by
        rw [hid, beq_iff_eq]
        exact ho
      rw [if_neg ho, Option.map_some, if_neg hne]

theorem find?_update_self (db : Database) (id : MachineId) {f : Machine → Machine}
    (hf : ∀ m, (f m).id = m.id) :
    (db.update id f).find? id = (db.find? id).map fun m => { f m with updatedAt := db.now } := by
  rw [find?_update db id id hf, if_pos rfl]

/-- The row that is found for an id has that id. -/
theorem id_of_find? {db : Database} {id : MachineId} {m : Machine} (h : db.find? id = some m) :
    m.id = id := by
  have := List.find?_some h
  rwa [beq_iff_eq] at this

theorem mem_of_find? {db : Database} {id : MachineId} {m : Machine} (h : db.find? id = some m) :
    m ∈ db.machines := List.mem_of_find?_eq_some h

theorem knows_iff {db : Database} {id : MachineId} :
    db.knows id = true ↔ ∃ m ∈ db.machines, m.id = id := by
  unfold knows
  simp only [List.any_eq_true, beq_iff_eq]

/-- A status that is read is the one whose word is stored. -/
theorem status_of_read {word : String} {status : MachineStatus}
    (h : MachineStatus.read word = .ok status) : word = status.word := by
  unfold MachineStatus.read at h
  cases hword : MachineStatus.ofWord? word with
  | none =>
    rw [hword] at h
    cases h
  | some found =>
    rw [hword] at h
    cases h
    unfold MachineStatus.ofWord? at hword
    split at hword
    · cases hword
      assumption
    split at hword
    · cases hword
      assumption
    split at hword
    · cases hword
      assumption
    · cases hword

/-- A snapshot shows what is stored in the row. -/
theorem find?_of_snapshot {db : Database} {id : MachineId} {current : Snapshot}
    (h : db.snapshot id = .ok (some current)) :
    ∃ m, db.find? id = some m ∧ m.status = current.status.word ∧
      m.credentialRemoved = current.credentialRemoved := by
  unfold snapshot at h
  cases hm : db.find? id with
  | none =>
    rw [hm] at h
    cases h
  | some m =>
    rw [hm] at h
    cases hstatus : m.readStatus with
    | error failure =>
      simp only [Machine.snapshot, hstatus] at h
      cases h
    | ok status =>
      simp only [Machine.snapshot, hstatus] at h
      cases h
      exact ⟨m, rfl, status_of_read hstatus, rfl⟩

/-! ## Statements for other machines -/

/-- Two databases show the same of a machine. -/
structure AgreesOn (id : MachineId) (db db' : Database) : Prop where
  row : db'.find? id = db.find? id
  entries : db'.entriesOf id = db.entriesOf id

namespace AgreesOn

variable {db db' db'' : Database} {id other : MachineId}

theorem refl (id : MachineId) (db : Database) : AgreesOn id db db := ⟨rfl, rfl⟩

theorem symm (h : AgreesOn id db db') : AgreesOn id db' db := ⟨h.row.symm, h.entries.symm⟩

theorem trans (h : AgreesOn id db db') (h' : AgreesOn id db' db'') : AgreesOn id db db'' :=
  ⟨h'.row.trans h.row, h'.entries.trans h.entries⟩

theorem update (db : Database) (hne : id ≠ other) {f : Machine → Machine}
    (hf : ∀ m, (f m).id = m.id) : AgreesOn id db (db.update other f) :=
  ⟨by rw [find?_update db other id hf, if_neg hne], rfl⟩

/-- Leaving out the entries of one machine leaves those of another. -/
theorem filter_entries (log : List LogEntry) (hne : id ≠ other) :
    (log.filter (·.machine != other)).filter (·.machine == id) = log.filter (·.machine == id) := by
  rw [List.filter_filter]
  refine List.filter_congr fun e _ => ?_
  by_cases h : e.machine = id
  · simp [h, hne]
  · simp [h]

theorem clearLog (db : Database) (hne : id ≠ other) : AgreesOn id db (db.clearLog other) :=
  ⟨rfl, filter_entries db.log hne⟩

theorem erase (db : Database) (hne : id ≠ other) : AgreesOn id db (db.erase other).2 := by
  refine ⟨?_, filter_entries db.log hne⟩
  show (db.machines.filter (·.id != other)).find? (·.id == id) = db.machines.find? (·.id == id)
  rw [List.find?_filter]
  congr 1
  funext m
  by_cases h : m.id = id
  · simp [h, hne]
  · simp [h]

theorem addEntry (db : Database) (hne : id ≠ other) (line : String) :
    AgreesOn id db (db.addEntry other line).2 := by
  refine ⟨rfl, ?_⟩
  show (db.log ++ [_]).filter (·.machine == id) = db.log.filter (·.machine == id)
  rw [List.filter_append]
  simp [Ne.symm hne]

theorem append (db : Database) (hne : id ≠ other) (line : String) :
    AgreesOn id db (db.append other line).2 := by
  unfold Database.append
  split
  · exact addEntry db hne line
  · exact ⟨rfl, rfl⟩

theorem perform (db : Database) (hne : id ≠ other) (call : Write) :
    AgreesOn id db (db.perform other call).2 := by
  cases call with
  | append line => exact append db hne line
  | clearLog => exact clearLog db hne
  | setStatus status => exact update db hne fun _ => rfl
  | setExtractedOutput value => exact update db hne fun _ => rfl
  | setCredentialRemoved removed => exact update db hne fun _ => rfl

theorem beginReprovision (db : Database) (hne : id ≠ other) :
    AgreesOn id db (db.beginReprovision other).2 := by
  unfold Database.beginReprovision
  split
  · split
    · exact update db hne fun _ => rfl
    · exact refl id db
  · exact refl id db

theorem insert {new : NewMachine} {row : Machine} (h : db.insert new = .ok (row, db'))
    (hne : id ≠ new.id) : AgreesOn id db db' := by
  unfold Database.insert at h
  split at h
  · cases h
  · cases h
    refine ⟨?_, rfl⟩
    show (db.machines ++ [NewMachine.row new db.now]).find? (·.id == id) = _
    rw [List.find?_append]
    have : ¬(NewMachine.row new db.now).id = id := Ne.symm hne
    simp [this, find?]

end AgreesOn

/-! ## The status in the row -/

/-- The word of the status of a machine, if there is such a machine. -/
def statusOf? (db : Database) (id : MachineId) : Option String := (db.find? id).map (·.status)

/-- A snapshot that is read shows the status in the row. -/
theorem statusOf?_of_snapshot {db : Database} {id : MachineId} {current : Snapshot}
    (h : db.snapshot id = .ok (some current)) : db.statusOf? id = some current.status.word := by
  obtain ⟨m, hm, hstatus, -⟩ := find?_of_snapshot h
  unfold statusOf?
  rw [hm, Option.map_some, hstatus]

theorem AgreesOn.statusOf?_eq {db db' : Database} {id : MachineId} (h : AgreesOn id db db') :
    db'.statusOf? id = db.statusOf? id := by
  unfold statusOf?
  rw [h.row]

/-- An update of other columns keeps the status. -/
theorem statusOf?_update (db : Database) (id : MachineId) {f : Machine → Machine}
    (hid : ∀ m, (f m).id = m.id) (hstatus : ∀ m, (f m).status = m.status) (other : MachineId) :
    (db.update id f).statusOf? other = db.statusOf? other := by
  unfold statusOf?
  rw [find?_update db id other hid]
  split
  · rw [Option.map_map]
    congr 1
    funext m
    exact hstatus m
  · rfl

theorem find?_append (db : Database) (id other : MachineId) (line : String) :
    (db.append id line).2.find? other = db.find? other := by
  unfold append
  split <;> rfl

/-- A write other than that of a status keeps the status. -/
theorem statusOf?_perform (db : Database) (id : MachineId) {call : Write}
    (hcall : call.setsStatus = false) (other : MachineId) :
    (db.perform id call).2.statusOf? other = db.statusOf? other := by
  cases call with
  | append line =>
    unfold statusOf?
    exact congrArg _ (find?_append db id other line)
  | clearLog => rfl
  | setStatus status => cases hcall
  | setExtractedOutput value =>
    exact statusOf?_update db id (f := fun m => { m with extractedOutput := value }) (fun _ => rfl)
      (fun _ => rfl) other
  | setCredentialRemoved removed =>
    exact statusOf?_update db id (f := fun m => { m with credentialRemoved := removed })
      (fun _ => rfl) (fun _ => rfl) other

theorem statusOf?_setStatus (db : Database) (id : MachineId) (status : MachineStatus) :
    (db.setStatus id status).statusOf? id = (db.statusOf? id).map fun _ => status.word := by
  unfold statusOf? setStatus
  rw [find?_update_self, Option.map_map, Option.map_map]
  · rfl
  · exact fun _ => rfl

theorem find?_erase_self (db : Database) (id : MachineId) : (db.erase id).2.find? id = none := by
  refine List.find?_eq_none.mpr ?_
  intro m hm
  have hne := (List.mem_filter.mp hm).2
  simpa using hne

theorem statusOf?_erase_self (db : Database) (id : MachineId) :
    (db.erase id).2.statusOf? id = none := by
  unfold statusOf?
  rw [find?_erase_self]
  rfl

/-- A machine that is recorded was not there before and is being provisioned. -/
theorem insert_spec {db db' : Database} {new : NewMachine} {row : Machine}
    (h : db.insert new = .ok (row, db')) :
    row.id = new.id ∧ db'.statusOf? new.id = some MachineStatus.provisioning.word := by
  unfold insert at h
  split at h
  · cases h
  · rename_i hknows
    cases h
    refine ⟨rfl, ?_⟩
    have hnone : db.machines.find? (·.id == new.id) = none := by
      refine List.find?_eq_none.mpr ?_
      intro m hm hid
      exact hknows (knows_iff.mpr ⟨m, hm, beq_iff_eq.mp hid⟩)
    unfold statusOf? find?
    show ((db.machines ++ [NewMachine.row new db.now]).find? (·.id == new.id)).map (·.status) = _
    have hself : ((NewMachine.row new db.now).id == new.id) = true := beq_self_eq_true new.id
    rw [List.find?_append, hnone, Option.none_or]
    unfold List.find?
    rw [hself]
    rfl

/-- The words that a reprovision accepts are those of the terminal statuses. -/
theorem status_of_isTerminal {m : Machine} (h : isTerminal m = true) :
    ∃ status : MachineStatus, status.isTerminal = true ∧ m.status = status.word := by
  unfold isTerminal at h
  rcases Bool.or_eq_true_iff.mp h with h | h
  · exact ⟨.ready, rfl, beq_iff_eq.mp h⟩
  · exact ⟨.failed, rfl, beq_iff_eq.mp h⟩

/-- A machine that is set back was in a terminal status and is being provisioned again. -/
theorem beginReprovision_spec {db : Database} {id : MachineId} {row : Machine}
    (h : (db.beginReprovision id).1 = some row) :
    row.id = id ∧
      (∃ status : MachineStatus, status.isTerminal = true ∧
        db.statusOf? id = some status.word) ∧
      (db.beginReprovision id).2.statusOf? id = some MachineStatus.provisioning.word := by
  unfold beginReprovision at h ⊢
  cases hm : db.find? id with
  | none =>
    rw [hm] at h
    cases h
  | some m =>
    rw [hm] at h
    simp only at h ⊢
    by_cases hterminal : isTerminal m = true
    · rw [if_pos hterminal] at h ⊢
      cases h
      obtain ⟨status, hstatus, hword⟩ := status_of_isTerminal hterminal
      have hid : m.id = id := id_of_find? hm
      refine ⟨hid, ⟨status, hstatus, ?_⟩, ?_⟩
      · unfold statusOf?
        rw [hm, Option.map_some, hword]
      · unfold statusOf?
        rw [find?_update_self, hm]
        · rfl
        · exact fun _ => rfl
    · rw [if_neg hterminal] at h
      cases h

/-- A machine that is not set back stays as it is. -/
theorem beginReprovision_none {db : Database} {id : MachineId}
    (h : (db.beginReprovision id).1 = none) : (db.beginReprovision id).2 = db := by
  unfold beginReprovision at h ⊢
  cases hm : db.find? id with
  | none => rfl
  | some m =>
    rw [hm] at h
    simp only at h ⊢
    by_cases hterminal : isTerminal m = true
    · rw [if_pos hterminal] at h
      cases h
    · rw [if_neg hterminal]

theorem beginReprovision_of_terminal {db : Database} {id : MachineId} {status : MachineStatus}
    (hterminal : status.isTerminal = true) (h : db.statusOf? id = some status.word) :
    ∃ row, (db.beginReprovision id).1 = some row := by
  obtain ⟨m, hm, hword⟩ := Option.map_eq_some_iff.mp h
  have hrow : isTerminal m = true := by
    unfold isTerminal
    rw [hword]
    cases status with
    | provisioning => cases hterminal
    | ready => rfl
    | failed => rfl
  unfold beginReprovision
  rw [hm]
  simp only [hrow, if_true]
  exact ⟨_, rfl⟩

theorem beginReprovision_of_provisioning {db : Database} {id : MachineId}
    (h : db.statusOf? id = some MachineStatus.provisioning.word) :
    (db.beginReprovision id).1 = none := by
  cases hrow : (db.beginReprovision id).1 with
  | none => rfl
  | some row =>
    obtain ⟨-, ⟨status, hterminal, hstatus⟩, -⟩ := beginReprovision_spec hrow
    rw [h] at hstatus
    have hword := MachineStatus.word_injective (Option.some.inj hstatus)
    rw [← hword] at hterminal
    cases hterminal

theorem find?_eq_none_iff {db : Database} {id : MachineId} :
    db.find? id = none ↔ db.statusOf? id = none := Option.map_eq_none_iff.symm

theorem not_knows_of_find? {db : Database} {id : MachineId} (h : db.find? id = none) :
    ¬db.knows id = true := by
  intro hknows
  obtain ⟨m, hm, hid⟩ := knows_iff.mp hknows
  exact List.find?_eq_none.mp h m hm (beq_iff_eq.mpr hid)

theorem find?_insert {db db' : Database} {new : NewMachine} {row : Machine}
    (h : db.insert new = .ok (row, db')) :
    db.find? new.id = none ∧ db'.statusOf? new.id = some MachineStatus.provisioning.word ∧
      ∀ id, db'.entriesOf id = db.entriesOf id := by
  refine ⟨?_, (insert_spec h).2, ?_⟩
  · unfold insert at h
    split at h
    · cases h
    · rename_i hknows
      refine List.find?_eq_none.mpr ?_
      intro m hm hid
      exact hknows (knows_iff.mpr ⟨m, hm, beq_iff_eq.mp hid⟩)
  · intro id
    unfold insert at h
    split at h
    · cases h
    · cases h
      rfl

end Database

end Provisioner
