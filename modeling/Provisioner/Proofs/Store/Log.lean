import Provisioner.Store.Database

/-!
# The log under the statements of the database

The database gives every entry an id that is greater than all ids before it (`LogOrdered`). A
statement either leaves some entries out or adds one entry at the end (`LogChange`), so that an
entry with an old id is never stored a second time.

What a viewer or a run sees of a machine is its row and its entries. A statement for another
machine leaves both as they were (`AgreesOn`).
-/

namespace Provisioner.Database

/-! ## Ids that grow -/

/-- The ids of the log are positive, grow, and stay below the id of the next entry. -/
structure LogOrdered (db : Database) : Prop where
  sorted : db.log.Pairwise (·.id < ·.id)
  pos : ∀ e ∈ db.log, 0 < e.id
  lt_next : ∀ e ∈ db.log, e.id < db.nextEntry
  next_pos : 0 < db.nextEntry

theorem logOrdered_empty : empty.LogOrdered where
  sorted := List.Pairwise.nil
  pos := by simp [empty]
  lt_next := by simp [empty]
  next_pos := by simp [empty]

/-- All that a statement does to the log. -/
inductive LogChange (db db' : Database) : Prop where
  /-- Some entries are left out; an id may be used up. -/
  | shrinks (keep : LogEntry → Bool) (hlog : db'.log = db.log.filter keep)
      (hnext : db.nextEntry ≤ db'.nextEntry)
  /-- An entry with the next id is added. -/
  | grows (e : LogEntry) (hid : e.id = db.nextEntry) (hlog : db'.log = db.log ++ [e])
      (hnext : db'.nextEntry = db.nextEntry + 1)

namespace LogChange

variable {db db' : Database}

/-- The log may stay as it is. -/
theorem of_eq (hlog : db'.log = db.log) (hnext : db'.nextEntry = db.nextEntry) :
    LogChange db db' := by
  refine .shrinks (fun _ => true) ?_ (Int.le_of_eq hnext.symm)
  rw [hlog]
  exact (List.filter_eq_self.mpr fun _ _ => rfl).symm

theorem refl (db : Database) : LogChange db db := of_eq rfl rfl

theorem next_le (h : LogChange db db') : db.nextEntry ≤ db'.nextEntry := by
  cases h with
  | shrinks _ _ hnext => exact hnext
  | grows _ _ _ hnext => rw [hnext]; omega

/-- An entry with an old id was there before. -/
theorem mem_of_lt (h : LogChange db db') {e : LogEntry} (he : e ∈ db'.log)
    (hid : e.id < db.nextEntry) : e ∈ db.log := by
  cases h with
  | shrinks keep hlog _ =>
    rw [hlog] at he
    exact (List.mem_filter.mp he).1
  | grows new hnew hlog _ =>
    rw [hlog, List.mem_append, List.mem_singleton] at he
    rcases he with he | rfl
    · exact he
    · omega

/-- **Ids go on growing whatever statement is made.** -/
theorem logOrdered (h : LogChange db db') (hdb : db.LogOrdered) : db'.LogOrdered := by
  cases h with
  | shrinks keep hlog hnext =>
    have hmem : ∀ e ∈ db'.log, e ∈ db.log := by
      intro e he
      rw [hlog] at he
      exact (List.mem_filter.mp he).1
    refine ⟨?_, fun e he => hdb.pos e (hmem e he), fun e he => ?_, ?_⟩
    · rw [hlog]
      exact hdb.sorted.filter keep
    · have := hdb.lt_next e (hmem e he)
      omega
    · have := hdb.next_pos
      omega
  | grows new hnew hlog hnext =>
    have hpos := hdb.next_pos
    refine ⟨?_, ?_, ?_, by omega⟩
    · rw [hlog, List.pairwise_append]
      refine ⟨hdb.sorted, List.pairwise_singleton _ _, ?_⟩
      intro e he e' he'
      rw [List.mem_singleton] at he'
      rw [he', hnew]
      exact hdb.lt_next e he
    · intro e he
      rw [hlog, List.mem_append, List.mem_singleton] at he
      rcases he with he | rfl
      · exact hdb.pos e he
      · omega
    · intro e he
      rw [hlog, List.mem_append, List.mem_singleton] at he
      rcases he with he | rfl
      · have := hdb.lt_next e he
        omega
      · omega

end LogChange

/-! ## Each statement changes the log in one of these ways -/

theorem logChange_updateWhere (db : Database) (p : Machine → Bool) (f : Machine → Machine) :
    LogChange db (db.updateWhere p f) := .of_eq rfl rfl

theorem logChange_addEntry (db : Database) (id : MachineId) (line : String) :
    LogChange db (db.addEntry id line).2 := .grows _ rfl rfl rfl

theorem logChange_append (db : Database) (id : MachineId) (line : String) :
    LogChange db (db.append id line).2 := by
  unfold append
  split
  · exact logChange_addEntry db id line
  · -- the entry is refused, and only its id is used up
    refine .shrinks (fun _ => true) (List.filter_eq_self.mpr fun _ _ => rfl).symm ?_
    show db.nextEntry ≤ db.nextEntry + 1
    omega

theorem logChange_clearLog (db : Database) (id : MachineId) : LogChange db (db.clearLog id) :=
  .shrinks (·.machine != id) rfl (Int.le_refl _)

theorem logChange_erase (db : Database) (id : MachineId) : LogChange db (db.erase id).2 :=
  .shrinks (·.machine != id) rfl (Int.le_refl _)

theorem logChange_beginReprovision (db : Database) (id : MachineId) :
    LogChange db (db.beginReprovision id).2 := by
  unfold beginReprovision
  split
  · split
    · exact logChange_updateWhere _ _ _
    · exact .refl db
  · exact .refl db

theorem logChange_insert {db db' : Database} {new : NewMachine} {row : Machine}
    (h : db.insert new = .ok (row, db')) : LogChange db db' := by
  unfold insert at h
  split at h
  · cases h
  · cases h
    exact .of_eq rfl rfl

theorem logChange_perform (db : Database) (id : MachineId) (call : Write) :
    LogChange db (db.perform id call).2 := by
  cases call with
  | append line => exact logChange_append db id line
  | clearLog => exact logChange_clearLog db id
  | setStatus status => exact logChange_updateWhere _ _ _
  | setExtractedOutput value => exact logChange_updateWhere _ _ _
  | setCredentialRemoved removed => exact logChange_updateWhere _ _ _

/-! ## The entries of one machine -/

/-- The entries of a machine, oldest first. -/
def entriesOf (db : Database) (id : MachineId) : List LogEntry := db.log.filter (·.machine == id)

theorem mem_entriesOf {db : Database} {id : MachineId} {e : LogEntry} :
    e ∈ db.entriesOf id ↔ e ∈ db.log ∧ e.machine = id := by
  unfold entriesOf
  rw [List.mem_filter, beq_iff_eq]

theorem mem_entriesAfter {db : Database} {id : MachineId} {after : Int} {e : LogEntry} :
    e ∈ db.entriesAfter id after ↔ e ∈ db.log ∧ e.machine = id ∧ after < e.id := by
  unfold entriesAfter
  rw [List.mem_filter, Bool.and_eq_true, beq_iff_eq, decide_eq_true_eq]

theorem entriesOf_clearLog (db : Database) (id : MachineId) : (db.clearLog id).entriesOf id = [] := by
  refine List.filter_eq_nil_iff.mpr ?_
  intro e he
  have hne := (List.mem_filter.mp he).2
  simpa using hne

theorem entriesOf_beginReprovision (db : Database) (id : MachineId) :
    (db.beginReprovision id).2.entriesOf id = db.entriesOf id := by
  unfold beginReprovision
  split
  · split <;> rfl
  · rfl

/-- Lists of entries with growing ids are equal if they hold the same entries. -/
theorem eq_of_sorted {a b : List LogEntry} (ha : a.Pairwise (·.id < ·.id))
    (hb : b.Pairwise (·.id < ·.id)) (h : ∀ e, e ∈ a ↔ e ∈ b) : a = b := by
  have hnodup : ∀ {l : List LogEntry}, l.Pairwise (·.id < ·.id) → l.Nodup := by
    intro l hl
    refine hl.imp ?_
    rintro x y hlt rfl
    exact Int.lt_irrefl _ hlt
  have hperm : a.Perm b := (List.perm_ext_iff_of_nodup (hnodup ha) (hnodup hb)).mpr h
  refine hperm.eq_of_pairwise ?_ ha hb
  intro x y _ _ hxy hyx
  exact absurd (Int.lt_trans hxy hyx) (Int.lt_irrefl _)

namespace LogOrdered

variable {db : Database}

theorem sorted_entriesOf (h : db.LogOrdered) (id : MachineId) :
    (db.entriesOf id).Pairwise (·.id < ·.id) := h.sorted.filter _

theorem sorted_entriesAfter (h : db.LogOrdered) (id : MachineId) (after : Int) :
    (db.entriesAfter id after).Pairwise (·.id < ·.id) := h.sorted.filter _

end LogOrdered

end Provisioner.Database
