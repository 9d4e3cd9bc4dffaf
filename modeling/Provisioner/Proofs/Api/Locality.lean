import Provisioner.Proofs.Api.Change

/-!
# What an event does to one machine

An event serves one machine at most. For any other it changes neither the row nor the log nor those
who act (`Apart`). `Change.changeAt` says what it can do to the machine that it serves: a note, a
status, the clearing of the log, the begin of a job, the deletion.
-/

namespace Provisioner.Api.Chronicle

open Database

variable {c c' : Chronicle} {id : MachineId}

/-- What is done for other machines leaves the row, the log and the actors of this one. -/
structure Apart (c c' : Chronicle) (id : MachineId) : Prop where
  agrees : AgreesOn id c.database c'.database
  nextJob_le : c.nextJob ≤ c'.nextJob
  journal : ∃ added, c'.journal = c.journal ++ added ∧ ∀ x ∈ added, x.machine ≠ id
  acts : ∀ part job, c'.Acts id part job → c.Acts id part job

/-- All that an event does to one machine. -/
inductive ChangeAt (c c' : Chronicle) (id : MachineId) : Prop where
  | apart (h : Apart c c' id)
  /-- Somebody who may write notes something. -/
  | noted (job : Nat) (call : Write) (hactor : c.Acts id .writing job)
      (hcall : call.isProgress = true)
      (hdatabase : c'.database = (c.database.perform id call).2)
      (hjournal : c'.journal = c.journal ++ [⟨job, id, call, c.database.newEntries id call⟩])
      (hjobs : c'.nextJob = c.nextJob)
      (hacts : ∀ part k, c'.Acts id part k → c.Acts id part k)
  /-- Somebody who acts writes a status. -/
  | concluded (part : Part) (job : Nat) (status : MachineStatus) (hactor : c.Acts id part job)
      (hdatabase : c'.database = (c.database.perform id (.setStatus status)).2)
      (hjournal : c'.journal = c.journal ++ [⟨job, id, .setStatus status, []⟩])
      (hjobs : c'.nextJob = c.nextJob)
      (hacts : ∀ part k, c'.Acts id part k → c.Acts id part k)
  /-- The job that holds the machine clears the log. -/
  | renewed (job : Nat) (hactor : c.Acts id .holding job)
      (hdatabase : c'.database = (c.database.perform id .clearLog).2)
      (hjournal : c'.journal = c.journal ++ [⟨job, id, .clearLog, []⟩])
      (hjobs : c'.nextJob = c.nextJob) (hactor' : c'.Acts id .writing job)
  /-- A job begins: it holds the machine, or the machine is new. -/
  | begun (part : Part)
      (hprovisioning : c'.database.statusOf? id = some MachineStatus.provisioning.word)
      (hlog : c'.database.entriesOf id = c.database.entriesOf id)
      (hnew : part = .writing ∧ c.database.find? id = none ∨
        part = .holding ∧ c.database.find? id ≠ none)
      (hjournal : c'.journal = c.journal) (hjobs : c'.nextJob = c.nextJob + 1)
      (hactor : c'.Acts id part c.nextJob)
  | erased (hdatabase : c'.database = (c.database.erase id).2) (hjournal : c'.journal = c.journal)
      (hjobs : c'.nextJob = c.nextJob)
      (hacts : ∀ part k, c'.Acts id part k → c.Acts id part k)

/-- An event that writes nothing leaves the journal as it is. -/
theorem exists_added_of_eq (h : c'.journal = c.journal) (id : MachineId) :
    ∃ added, c'.journal = c.journal ++ added ∧ ∀ x ∈ added, x.machine ≠ id :=
  ⟨[], by rw [h, List.append_nil], nofun⟩

/-- A write changes the machine that it is for. -/
theorem changeAt_write {part : Part} {job : Nat} {call : Write}
    (hactor : c.Acts id part job) (hfits : part.Fits call)
    (hdatabase : c'.database = (c.database.perform id call).2)
    (hjournal : c'.journal = c.journal ++ [⟨job, id, call, c.database.newEntries id call⟩])
    (hjobs : c'.nextJob = c.nextJob)
    (hacts : call ≠ .clearLog → ∀ part k, c'.Acts id part k → c.Acts id part k)
    (hcleared : call = .clearLog → c'.Acts id .writing job) : ChangeAt c c' id := by
  cases part with
  | holding =>
    rcases hfits with rfl | rfl
    · exact .renewed job hactor hdatabase hjournal hjobs (hcleared rfl)
    · exact .concluded .holding job _ hactor hdatabase hjournal hjobs (hacts nofun)
  | writing =>
    rcases hfits with hprogress | ⟨status, rfl, -⟩
    · have hclear : call ≠ .clearLog := by
        rintro rfl
        cases hprogress
      exact .noted job call hactor hprogress hdatabase hjournal hjobs (hacts hclear)
    · exact .concluded .writing job status hactor hdatabase hjournal hjobs (hacts nofun)

/-- **Each event changes a machine in one of these ways.** -/
theorem Change.changeAt (h : Change c c') (id : MachineId) :
    ChangeAt c c' id := by
  cases h with
  | rests hdatabase hjournal hjobs hacts =>
    refine .apart ⟨?_, Nat.le_of_eq hjobs.symm, exists_added_of_eq hjournal id, hacts id⟩
    rw [hdatabase]
    exact .refl id _
  | wrote other part job call hactor hfits hdatabase hjournal hjobs hacts hcleared =>
    by_cases hid : id = other
    · subst hid
      exact changeAt_write hactor hfits hdatabase hjournal hjobs
        (fun hcall part k hk => (hacts id part k hk).resolve_right fun hclear => hcall hclear.1)
        hcleared
    · refine .apart ⟨?_, Nat.le_of_eq hjobs.symm, ⟨_, hjournal, ?_⟩, ?_⟩
      · rw [hdatabase]
        exact .perform _ hid call
      · intro x hx
        rw [List.mem_singleton.mp hx]
        exact Ne.symm hid
      · exact fun part k hk => (hacts id part k hk).resolve_right fun hclear => hid hclear.2
  | recorded new row hdatabase hjournal hjobs hacts hactor =>
    by_cases hid : id = new.id
    · subst hid
      obtain ⟨hnone, hstatus, hlog⟩ := find?_insert hdatabase
      exact .begun .writing hstatus (hlog new.id) (Or.inl ⟨rfl, hnone⟩) hjournal hjobs hactor
    · refine .apart ⟨.insert hdatabase hid, by omega, exists_added_of_eq hjournal id, ?_⟩
      exact fun part k hk => (hacts id part k hk).resolve_right fun hnew => hid hnew.1
  | restarted other row hrow hdatabase hjournal hjobs hacts hactor =>
    by_cases hid : id = other
    · subst hid
      obtain ⟨-, ⟨_, -, hold⟩, hstatus⟩ := beginReprovision_spec hrow
      have hfound : c.database.find? id ≠ none := by
        intro hnone
        rw [find?_eq_none_iff.mp hnone] at hold
        cases hold
      have hlog : c'.database.entriesOf id = c.database.entriesOf id := by
        rw [hdatabase]
        exact entriesOf_beginReprovision _ id
      rw [← hdatabase] at hstatus
      exact .begun .holding hstatus hlog (Or.inr ⟨rfl, hfound⟩) hjournal hjobs hactor
    · refine .apart ⟨?_, by omega, exists_added_of_eq hjournal id, ?_⟩
      · rw [hdatabase]
        exact .beginReprovision _ hid
      · exact fun part k hk => (hacts id part k hk).resolve_right fun hnew => hid hnew.1
  | erased other hdatabase hjournal hjobs hacts =>
    by_cases hid : id = other
    · subst hid
      exact .erased hdatabase hjournal hjobs (hacts id)
    · refine .apart ⟨?_, Nat.le_of_eq hjobs.symm, exists_added_of_eq hjournal id, hacts id⟩
      rw [hdatabase]
      exact .erase _ hid

end Provisioner.Api.Chronicle
