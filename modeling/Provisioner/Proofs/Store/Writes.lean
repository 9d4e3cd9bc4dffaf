import Provisioner.Proofs.Store.Row

/-!
# Writes for one machine, one after the other

A write that does not fail changes the row of its machine (`Machine.write`) or adds a line to its
log. What several of them come to is read off the list of writes.
-/

namespace Provisioner

/-- The row of a machine after a write for it, but for the time of its last change. -/
def Machine.write (m : Machine) : Write → Machine
  | .setStatus status => { m with status := status.word }
  | .setExtractedOutput value => { m with extractedOutput := value }
  | .setCredentialRemoved removed => { m with credentialRemoved := removed }
  | .append _ | .clearLog => m

/-- When a row was last changed has no part in its writes. -/
theorem Machine.foldl_write_updatedAt (writes : List Write) (m : Machine) (time : Timestamp) :
    writes.foldl write { m with updatedAt := time } =
      { writes.foldl write m with updatedAt := time } := by
  induction writes generalizing m with
  | nil => rfl
  | cons call writes ih =>
    rw [List.foldl_cons, List.foldl_cons, ← ih]
    cases call <;> rfl

namespace Database

/-- The database after some writes for a machine. -/
def performAll (db : Database) (id : MachineId) (writes : List Write) : Database :=
  writes.foldl (fun db call => (db.perform id call).2) db

theorem performAll_cons (db : Database) (id : MachineId) (call : Write) (writes : List Write) :
    db.performAll id (call :: writes) = (db.perform id call).2.performAll id writes := rfl

variable {db : Database} {id : MachineId} {row : Machine}

/-! ## The row -/

theorem find?_perform (h : db.find? id = some row) (call : Write) :
    ∃ time, (db.perform id call).2.find? id = some { row.write call with updatedAt := time } := by
  have hupdate : ∀ f : Machine → Machine, (∀ m, (f m).id = m.id) →
      (db.update id f).find? id = some { f row with updatedAt := db.now } := by
    intro f hf
    rw [find?_update_self db id hf, h]
    rfl
  cases call with
  | append line => exact ⟨row.updatedAt, (find?_append db id id line).trans h⟩
  | clearLog => exact ⟨row.updatedAt, h⟩
  | setStatus status => exact ⟨db.now, hupdate _ fun _ => rfl⟩
  | setExtractedOutput value => exact ⟨db.now, hupdate _ fun _ => rfl⟩
  | setCredentialRemoved removed => exact ⟨db.now, hupdate _ fun _ => rfl⟩

/-- **Writes change the row one after the other.** -/
theorem find?_performAll (h : db.find? id = some row) (writes : List Write) :
    ∃ time, (db.performAll id writes).find? id =
      some { writes.foldl Machine.write row with updatedAt := time } := by
  induction writes generalizing db row with
  | nil => exact ⟨row.updatedAt, h⟩
  | cons call writes ih =>
    obtain ⟨time, hrow⟩ := find?_perform h call
    obtain ⟨last, hlast⟩ := ih hrow
    -- the time of the first write is lost under that of the last one
    rw [Machine.foldl_write_updatedAt] at hlast
    exact ⟨last, hlast⟩

/-! ## The log -/

theorem entriesOf_append (h : db.find? id = some row) (line : String) :
    (db.append id line).2.entriesOf id =
      db.entriesOf id ++ [⟨db.nextEntry, id, line, db.now⟩] := by
  have hknown : db.knows id = true := knows_iff.mpr ⟨row, mem_of_find? h, id_of_find? h⟩
  unfold append
  rw [if_pos hknown]
  show (db.log ++ [_]).filter (·.machine == id) = db.log.filter (·.machine == id) ++ _
  rw [List.filter_append]
  simp

theorem entriesOf_perform (h : db.find? id = some row) {call : Write} (hcall : call ≠ .clearLog) :
    ∃ added, (db.perform id call).2.entriesOf id = db.entriesOf id ++ added ∧
      added.map (·.line) = call.line?.toList := by
  cases call with
  | append line => exact ⟨_, entriesOf_append h line, rfl⟩
  | clearLog => exact absurd rfl hcall
  | _ => exact ⟨[], (List.append_nil _).symm, rfl⟩

/-- **The lines that are written come after those that are stored, in order.** -/
theorem entriesOf_performAll (h : db.find? id = some row) {writes : List Write}
    (hwrites : ∀ call ∈ writes, call ≠ .clearLog) :
    ∃ added, (db.performAll id writes).entriesOf id = db.entriesOf id ++ added ∧
      added.map (·.line) = writes.filterMap Write.line? := by
  induction writes generalizing db row with
  | nil => exact ⟨[], (List.append_nil _).symm, rfl⟩
  | cons call writes ih =>
    obtain ⟨hcall, hwrites⟩ := List.forall_mem_cons.mp hwrites
    obtain ⟨time, hrow⟩ := find?_perform h call
    obtain ⟨first, hfirst, hline⟩ := entriesOf_perform h hcall
    obtain ⟨rest, hrest, hlines⟩ := ih hrow hwrites
    refine ⟨first ++ rest, ?_, ?_⟩
    · rw [performAll_cons, hrest, hfirst, List.append_assoc]
    · rw [List.map_append, hline, hlines]
      cases call <;> rfl

/-! ## What one write adds -/

/-- The entries that a write adds to the log. -/
def newEntries (db : Database) (id : MachineId) : Write → List LogEntry
  | .append line => if db.knows id then [⟨db.nextEntry, id, line, db.now⟩] else []
  | _ => []

theorem newEntries_append {db : Database} {id : MachineId} (h : db.knows id = true) (line : String) :
    db.newEntries id (.append line) = [⟨db.nextEntry, id, line, db.now⟩] := if_pos h

/-- Nothing is stored for a machine that is not there. -/
theorem newEntries_of_unknown {db : Database} {id : MachineId} (h : ¬db.knows id = true)
    (call : Write) : db.newEntries id call = [] := by
  cases call with
  | append line => exact if_neg h
  | _ => rfl

theorem log_perform (db : Database) (id : MachineId) {call : Write} (hcall : call ≠ .clearLog) :
    (db.perform id call).2.log = db.log ++ db.newEntries id call := by
  cases call with
  | append line =>
    simp only [perform, append]
    by_cases hknows : db.knows id = true
    · rw [newEntries_append hknows, if_pos hknows]
      rfl
    · rw [newEntries_of_unknown hknows, if_neg hknows, List.append_nil]
      rfl
  | clearLog => exact absurd rfl hcall
  | _ => exact (List.append_nil _).symm

/-- A write adds at most one entry, which gets the next id. -/
theorem newEntries_cases (db : Database) (id : MachineId) (call : Write) :
    db.newEntries id call = [] ∨
      ∃ e, db.newEntries id call = [e] ∧ e.machine = id ∧ e.id = db.nextEntry ∧
        (db.perform id call).2.nextEntry = db.nextEntry + 1 := by
  by_cases hknows : db.knows id = true
  · cases call with
    | append line =>
      refine Or.inr ⟨_, newEntries_append hknows line, rfl, rfl, ?_⟩
      simp only [perform, append]
      rw [if_pos hknows]
      rfl
    | _ => exact Or.inl rfl
  · exact Or.inl (newEntries_of_unknown hknows call)

theorem entriesOf_perform_of_ne (db : Database) (id : MachineId) {call : Write}
    (hcall : call ≠ .clearLog) :
    (db.perform id call).2.entriesOf id = db.entriesOf id ++ db.newEntries id call := by
  unfold entriesOf
  rw [log_perform db id hcall, List.filter_append]
  congr 1
  refine List.filter_eq_self.mpr ?_
  intro e he
  rcases newEntries_cases db id call with hnil | ⟨new, hnew, hmachine, -⟩
  · rw [hnil] at he
    cases he
  · rw [hnew] at he
    rw [List.mem_singleton.mp he, hmachine]
    exact beq_self_eq_true id

/-! ## Other machines -/

theorem AgreesOn.performAll (db : Database) {other : MachineId} (hne : other ≠ id)
    (writes : List Write) : AgreesOn other db (db.performAll id writes) := by
  induction writes generalizing db with
  | nil => exact .refl other db
  | cons call writes ih => exact (AgreesOn.perform db hne call).trans (ih _)

end Database

end Provisioner
