import Provisioner.Proofs.Store.Row

/-!
# The tables after a restart

Runs end with the process. Before the service takes requests it ends those that an earlier process
was in the middle of, so that no machine is left in a status that nobody will ever change.

* `machines_withoutInterrupted` says what becomes of the rows, and
  `exists_entries_addInterruptedLines` what is added to the log.
* `interrupted_runs_ended` puts both together for the whole transaction (`Database.Recovered`).
-/

namespace Provisioner.Database

/-- Adding lines to logs leaves the machines alone. -/
theorem machines_addInterruptedLines (db : Database) (time : Timestamp) (ids : List MachineId) :
    (db.addInterruptedLines time ids).machines = db.machines := by
  unfold addInterruptedLines
  induction ids generalizing db with
  | nil => rfl
  | cons id ids ih =>
    rw [List.foldl_cons, ih]
    rfl

/-- A row whose machine was being provisioned shows it as failed. -/
theorem status_withoutInterrupted (db : Database) {m : Machine}
    (h : m ∈ db.withoutInterrupted.machines) : m.status ≠ MachineStatus.provisioning.word := by
  unfold withoutInterrupted at h
  rw [machines_addInterruptedLines] at h
  obtain ⟨old, -, rfl⟩ := List.mem_map.mp h
  split
  · exact fun h => nomatch MachineStatus.word_injective (a := .failed) (b := .provisioning) h
  · rename_i hold
    intro hstatus
    exact hold (beq_iff_eq.mpr hstatus)

/-- A transaction that succeeds ends the interrupted runs. -/
theorem failInterrupted_spec {db db' : Database} {faults : RecoveryFaults} {ids : List MachineId}
    (h : db.failInterrupted faults = (.ok ids, db')) : db' = db.withoutInterrupted := by
  unfold failInterrupted at h
  simp only at h
  split at h
  · cases h
  · split at h
    · cases h
    · cases h
      rfl

/-- **After a restart no machine is being provisioned.** -/
theorem statusOf?_of_failInterrupted {db db' : Database} {faults : RecoveryFaults}
    {ids : List MachineId} (h : db.failInterrupted faults = (.ok ids, db')) (id : MachineId) :
    db'.statusOf? id ≠ some MachineStatus.provisioning.word := by
  rw [failInterrupted_spec h]
  intro hstatus
  obtain ⟨m, hm, hword⟩ := Option.map_eq_some_iff.mp hstatus
  exact status_withoutInterrupted db (mem_of_find? hm) hword

/-! ## The rows -/

/-- No two machines have one id. -/
def Keyed (db : Database) : Prop := (db.machines.map (·.id)).Nodup

/-- A row is changed just if its machine was being provisioned. -/
theorem machines_withoutInterrupted (db : Database) :
    db.withoutInterrupted.machines = db.machines.map fun m =>
      if m.status = MachineStatus.provisioning.word then
        { m with status := MachineStatus.failed.word, updatedAt := db.now }
      else m := by
  unfold withoutInterrupted
  rw [machines_addInterruptedLines]
  simp [updateWhere, isProvisioning]

theorem mem_interrupted {db : Database} {id : MachineId} :
    id ∈ db.interrupted ↔
      ∃ m ∈ db.machines, m.id = id ∧ m.status = MachineStatus.provisioning.word := by
  simp [interrupted, isProvisioning, and_comm, and_left_comm]

theorem Keyed.nodup_interrupted {db : Database} (h : db.Keyed) : db.interrupted.Nodup :=
  h.sublist (List.filter_sublist.map _)

/-- Where no machine is being provisioned there is nothing to end. -/
theorem interrupted_eq_nil {db : Database}
    (h : ∀ m ∈ db.machines, m.status ≠ MachineStatus.provisioning.word) : db.interrupted = [] := by
  refine List.eq_nil_iff_forall_not_mem.mpr fun id hid => ?_
  obtain ⟨m, hm, -, hstatus⟩ := mem_interrupted.mp hid
  exact h m hm hstatus

/-! ## The log -/

/-- **Each of the machines gets one line, in their order, under ids that grow, at one time.** -/
theorem exists_entries_addInterruptedLines (db : Database) (time : Timestamp)
    (ids : List MachineId) :
    ∃ added, (db.addInterruptedLines time ids).log = db.log ++ added ∧
      added.map (·.machine) = ids ∧
      (∀ e ∈ added, e.line = interruptedLine ∧ e.createdAt = time ∧ db.nextEntry ≤ e.id) ∧
      added.Pairwise (·.id < ·.id) := by
  induction ids generalizing db with
  | nil => exact ⟨[], by simp [addInterruptedLines]⟩
  | cons id ids ih =>
    obtain ⟨added, hlog, hmachines, hlines, hsorted⟩ :=
      ih (db.addEntryAt time id interruptedLine).2
    have hnext : (db.addEntryAt time id interruptedLine).2.nextEntry = db.nextEntry + 1 := rfl
    rw [hnext] at hlines
    refine ⟨⟨db.nextEntry, id, interruptedLine, time⟩ :: added, ?_, ?_, ?_, ?_⟩
    · show ((db.addEntryAt time id interruptedLine).2.addInterruptedLines time ids).log = _
      rw [hlog, List.append_cons]; rfl
    · rw [List.map_cons, hmachines]
    · intro e he
      rcases List.mem_cons.mp he with rfl | he
      · exact ⟨rfl, rfl, Int.le_refl _⟩
      · obtain ⟨hline, htime, hid⟩ := hlines e he
        exact ⟨hline, htime, by omega⟩
    · refine List.pairwise_cons.mpr ⟨fun e he => ?_, hsorted⟩
      have := (hlines e he).2.2
      show db.nextEntry < e.id
      omega

/-- The ids of machines, of which none occurs twice, in growing order. -/
theorem sorted_mergeSort {ids : List MachineId} (h : ids.Nodup) :
    (ids.mergeSort fun a b => decide (a ≤ b)).Pairwise (· < ·) := by
  have hle : (ids.mergeSort fun a b => decide (a ≤ b)).Pairwise (· ≤ ·) := by
    have hsorted : (ids.mergeSort fun a b => decide (a ≤ b)).Pairwise
        fun a b => decide (a ≤ b) = true :=
      List.pairwise_mergeSort
        (fun a b c hab hbc => by
          simpa using Int64.le_trans (by simpa using hab) (by simpa using hbc))
        (fun a b => by simpa using Int64.le_total a b) ids
    simpa using hsorted
  exact hle.imp₂ (fun _ _ => Int64.lt_of_le_of_ne)
    ((List.mergeSort_perm ids _).nodup_iff.mpr h)

/-- An entry whose machine has no other one is the only one of that machine. -/
theorem filter_machine_of_mem {entries : List LogEntry} (h : (entries.map (·.machine)).Nodup)
    {e : LogEntry} (he : e ∈ entries) : entries.filter (·.machine == e.machine) = [e] := by
  induction entries with
  | nil => cases he
  | cons first entries ih =>
    obtain ⟨hfirst, hrest⟩ := List.nodup_cons.mp h
    rcases List.mem_cons.mp he with rfl | he
    · rw [List.filter_cons_of_pos (by simp), List.filter_eq_nil_iff.mpr]
      intro x hx heq
      exact hfirst (List.mem_map.mpr ⟨x, hx, by simpa using heq⟩)
    · have hne : ¬(first.machine == e.machine) = true := by
        intro heq
        exact hfirst (List.mem_map.mpr ⟨e, he, (beq_iff_eq.mp heq).symm⟩)
      rw [List.filter_cons, if_neg hne, ih hrest he]

/-! ## The transaction -/

/-- **A transaction that fails leaves the tables as they were.** -/
theorem failInterrupted_error {db db' : Database} {faults : RecoveryFaults}
    {failure : DatabaseFailure} (h : db.failInterrupted faults = (.error failure, db')) :
    db'.machines = db.machines ∧ db'.log = db.log := by
  unfold failInterrupted at h
  simp only at h
  split at h
  · cases h; exact ⟨rfl, rfl⟩
  · split at h
    · cases h; exact ⟨rfl, rfl⟩
    · cases h

/-- The transaction fails just if a part of it that is made fails. -/
theorem failInterrupted_eq_error_iff (db : Database) (faults : RecoveryFaults) :
    (∃ failure, (db.failInterrupted faults).1 = .error failure) ↔
      faults.beginning ≠ none ∨ faults.update ≠ none ∨
        (faults.entries ≠ none ∧ db.interrupted ≠ []) ∨ faults.commit ≠ none := by
  obtain ⟨beginning, update, entries, commit⟩ := faults
  unfold failInterrupted
  cases beginning <;> cases update <;> cases entries <;> cases commit <;>
    by_cases hnone : db.interrupted = [] <;> simp [hnone]

/-- What is returned by a transaction that succeeds. -/
theorem ids_of_failInterrupted {db db' : Database} {faults : RecoveryFaults} {ids : List MachineId}
    (h : db.failInterrupted faults = (.ok ids, db')) : ids = db.interrupted := by
  unfold failInterrupted at h
  simp only at h
  split at h
  · cases h
  · split at h
    · cases h
    · cases h; rfl

/-- Where no machine is being provisioned the transaction changes neither table. -/
theorem failInterrupted_of_settled {db : Database}
    (h : ∀ m ∈ db.machines, m.status ≠ MachineStatus.provisioning.word) (faults : RecoveryFaults) :
    (db.failInterrupted faults).2.machines = db.machines ∧
      (db.failInterrupted faults).2.log = db.log := by
  cases hresult : db.failInterrupted faults with
  | mk result db' =>
    cases result with
    | error failure => exact failInterrupted_error hresult
    | ok ids =>
      rw [failInterrupted_spec hresult]
      constructor
      · rw [machines_withoutInterrupted]
        refine (List.map_congr_left fun m hm => ?_).trans (List.map_id _)
        rw [if_neg (h m hm)]; rfl
      · unfold withoutInterrupted
        rw [interrupted_eq_nil h, List.mergeSort_nil]; rfl

/-- What a recovery leaves that succeeds and has ended the runs of the machines `ids`. -/
structure Recovered (db : Database) (ids : List MachineId) (db' : Database) : Prop where
  nodup : ids.Nodup
  mem_iff : ∀ id, id ∈ ids ↔
    ∃ m ∈ db.machines, m.id = id ∧ m.status = MachineStatus.provisioning.word
  rows : db'.machines = db.machines.map fun m =>
    if m.status = MachineStatus.provisioning.word then
      { m with status := MachineStatus.failed.word, updatedAt := db.now }
    else m
  settled : ∀ m ∈ db'.machines, m.status ≠ MachineStatus.provisioning.word
  /--
  The new entries lie behind all that the log has held, sorted by their machines, and have the time
  of the rows.
  -/
  log : ∃ added, db'.log = db.log ++ added ∧
    (∀ id, id ∈ added.map (·.machine) ↔ id ∈ ids) ∧
    added.Pairwise (fun a b => a.machine < b.machine ∧ a.id < b.id) ∧
    ∀ e ∈ added, e.line = interruptedLine ∧ e.createdAt = db.now ∧ db.nextEntry ≤ e.id ∧
      ∀ old ∈ db.log, old.id < e.id
  one_entry : ∀ id ∈ ids, ∃ e, e.line = interruptedLine ∧
    db'.entriesOf id = db.entriesOf id ++ [e]
  no_entry : ∀ id, id ∉ ids → db'.entriesOf id = db.entriesOf id
  repeated : ∀ faults,
    (∀ ids', (db'.failInterrupted faults).1 = .ok ids' → ids' = []) ∧
    (db'.failInterrupted faults).2.machines = db'.machines ∧
    (db'.failInterrupted faults).2.log = db'.log

theorem recovered_withoutInterrupted {db : Database} (hkeyed : db.Keyed) (hordered : db.LogOrdered) :
    Recovered db db.interrupted db.withoutInterrupted := by
  have hsorted := sorted_mergeSort hkeyed.nodup_interrupted
  have hperm := List.mergeSort_perm db.interrupted fun a b => decide (a ≤ b)
  obtain ⟨added, hlog, hmachines, hlines, hids⟩ := exists_entries_addInterruptedLines
    (db.updateWhere isProvisioning fun m => { m with status := MachineStatus.failed.word }) db.now
    (db.interrupted.mergeSort fun a b => decide (a ≤ b))
  have hafter : db.withoutInterrupted.log = db.log ++ added := hlog
  have hentries : ∀ id, db.withoutInterrupted.entriesOf id =
      db.entriesOf id ++ added.filter (·.machine == id) := by
    intro id
    unfold entriesOf
    rw [hafter, List.filter_append]
  have hsettled : ∀ m ∈ db.withoutInterrupted.machines,
      m.status ≠ MachineStatus.provisioning.word := fun m hm => status_withoutInterrupted db hm
  rw [← hmachines] at hsorted hperm
  refine ⟨hkeyed.nodup_interrupted, fun id => mem_interrupted, machines_withoutInterrupted db,
    hsettled, ⟨added, hafter, fun id => hperm.mem_iff, ?_, ?_⟩, ?_, ?_, ?_⟩
  · exact (List.pairwise_map.mp hsorted).and hids
  · intro e he
    obtain ⟨hline, htime, hnext⟩ := hlines e he
    exact ⟨hline, htime, hnext, fun old hold =>
      Int.lt_of_lt_of_le (hordered.lt_next old hold) hnext⟩
  · intro id hid
    obtain ⟨e, he, rfl⟩ := List.mem_map.mp (hperm.mem_iff.mpr hid)
    have hnodup : (added.map (·.machine)).Nodup := hperm.nodup_iff.mpr hkeyed.nodup_interrupted
    exact ⟨e, (hlines e he).1, by rw [hentries, filter_machine_of_mem hnodup he]⟩
  · intro id hid
    rw [hentries, List.filter_eq_nil_iff.mpr, List.append_nil]
    intro e he heq
    exact hid (hperm.mem_iff.mp (List.mem_map.mpr ⟨e, he, by simpa using heq⟩))
  · intro faults
    refine ⟨?_, failInterrupted_of_settled hsettled faults⟩
    intro ids' hids'
    rw [← interrupted_eq_nil hsettled]
    exact ids_of_failInterrupted (Prod.ext hids' rfl)

/--
**The recovery ends the interrupted runs, all or none of them.** Machines have different ids and
the log is as the database keeps it. A recovery that succeeds gives the ids of the machines that
were being provisioned, marks just these as failed, and adds one line to the log of each; made
again it finds nothing to do. One that fails leaves both tables as they were, and it fails just if
one of its statements or the commit does.
-/
theorem interrupted_runs_ended {db : Database} (hkeyed : db.Keyed) (hordered : db.LogOrdered)
    (faults : RecoveryFaults) :
    (∀ ids db', db.failInterrupted faults = (.ok ids, db') → Recovered db ids db') ∧
    (∀ failure db', db.failInterrupted faults = (.error failure, db') →
      db'.machines = db.machines ∧ db'.log = db.log) ∧
    ((∃ failure, (db.failInterrupted faults).1 = .error failure) ↔
      faults.beginning ≠ none ∨ faults.update ≠ none ∨
        (faults.entries ≠ none ∧ db.interrupted ≠ []) ∨ faults.commit ≠ none) := by
  refine ⟨?_, fun _ _ => failInterrupted_error, failInterrupted_eq_error_iff db faults⟩
  intro ids db' h
  rw [ids_of_failInterrupted h, failInterrupted_spec h]
  exact recovered_withoutInterrupted hkeyed hordered

/-- Two machines that are being provisioned, and between them one that is ready and has a line. -/
def threeMachines : Database :=
  { machines := [NewMachine.row ⟨7, "web", "192.0.2.7", "hetzner", .empty⟩ ⟨0, 0⟩,
      { NewMachine.row ⟨5, "db", "192.0.2.5", "hetzner", .empty⟩ ⟨1, 0⟩ with
        status := MachineStatus.ready.word },
      NewMachine.row ⟨2, "mail", "192.0.2.2", "hetzner", .empty⟩ ⟨2, 0⟩]
    log := [⟨4, 5, "Installing", ⟨3, 0⟩⟩], nextEntry := 6, clock := 4 }

theorem interrupted_runs_ended_threeMachines :
    threeMachines.Keyed ∧ threeMachines.LogOrdered ∧
    (threeMachines.failInterrupted ⟨none, none, none, none⟩).1 = .ok [7, 2] ∧
    Recovered threeMachines [7, 2] threeMachines.withoutInterrupted ∧
    threeMachines.withoutInterrupted.log.map (fun e => (e.id, e.machine)) =
      [(4, 5), (6, 2), (7, 7)] ∧
    (threeMachines.failInterrupted ⟨none, none, none, some .noConnection⟩).2.log =
      threeMachines.log := by
  have hkeyed : threeMachines.Keyed := by
    show (threeMachines.machines.map (·.id)).Nodup
    decide +kernel
  have hordered : threeMachines.LogOrdered :=
    ⟨by decide +kernel, by decide +kernel, by decide +kernel, by decide +kernel⟩
  obtain ⟨hended, -, -⟩ := interrupted_runs_ended hkeyed hordered ⟨none, none, none, none⟩
  obtain ⟨-, hkept, -⟩ :=
    interrupted_runs_ended hkeyed hordered ⟨none, none, none, some .noConnection⟩
  refine ⟨hkeyed, hordered, rfl, hended _ _ rfl, ?_, (hkept _ _ rfl).2⟩
  have hsort : threeMachines.interrupted.mergeSort (fun a b => decide (a ≤ b)) = [2, 7] := by
    show [7, 2].mergeSort _ = _
    simp [List.mergeSort]
  unfold withoutInterrupted
  rw [hsort]
  rfl

end Provisioner.Database
