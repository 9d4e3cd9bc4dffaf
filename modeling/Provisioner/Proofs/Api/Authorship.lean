import Provisioner.Proofs.Api.Locality

/-!
# Whose lines are stored for a machine

A run writes with no lock on the log, and a request clears the log long after it has set the row
back. All the same the log of a machine never holds lines of two jobs: while a job has still to
clear the log nobody writes, and when it has cleared it nobody but that job does.

`Chronicle.Authored` is the invariant of one machine, with the last job that was begun for it and the
job whose lines are stored. Each way in which an event can change a machine keeps it, and so
`Authored.change` keeps it along every event.
-/

namespace Provisioner

open Database

namespace Api

namespace Chronicle

/-- The entries that were stored for a machine in a job, first one first. -/
def entriesBy (c : Chronicle) (job : Nat) (id : MachineId) : List LogEntry :=
  (c.journal.filter fun x => x.job == job && x.machine == id).flatMap (·.entries)

/-- How often the log of a machine was cleared. -/
def clearings (c : Chronicle) (id : MachineId) : Nat :=
  c.journal.countP fun x => x.machine == id && x.call == .clearLog

section EntriesBy

variable {c c' : Chronicle} {job k : Nat} {id other : MachineId} {x : Signed}

theorem entriesBy_of_eq (h : c'.journal = c.journal) (job : Nat) (id : MachineId) :
    c'.entriesBy job id = c.entriesBy job id := by
  unfold entriesBy
  rw [h]

theorem entriesBy_concat_self (h : c'.journal = c.journal ++ [x]) (hjob : x.job = job)
    (hid : x.machine = id) : c'.entriesBy job id = c.entriesBy job id ++ x.entries := by
  unfold entriesBy
  rw [h, List.filter_append, List.flatMap_append]
  simp [hjob, hid]

theorem entriesBy_concat_other (h : c'.journal = c.journal ++ [x])
    (hx : x.job ≠ job ∨ x.entries = []) :
    c'.entriesBy job id = c.entriesBy job id := by
  unfold entriesBy
  rw [h, List.filter_append, List.flatMap_append]
  rcases hx with hx | hx
  · simp [hx]
  · by_cases hsigned : (x.job == job && x.machine == id) = true
    · simp [hsigned, hx]
    · simp [hsigned]

theorem mem_entriesBy {e : LogEntry} :
    e ∈ c.entriesBy job id ↔ ∃ x ∈ c.journal, x.job = job ∧ x.machine = id ∧ e ∈ x.entries := by
  unfold entriesBy
  simp only [List.mem_flatMap, List.mem_filter, Bool.and_eq_true, beq_iff_eq, and_assoc]

theorem mem_entriesBy_mono (h : c.journal <+: c'.journal) {e : LogEntry}
    (he : e ∈ c.entriesBy job id) : e ∈ c'.entriesBy job id := by
  obtain ⟨x, hx, hsigned⟩ := mem_entriesBy.mp he
  exact mem_entriesBy.mpr ⟨x, h.subset hx, hsigned⟩

end EntriesBy

/-- A job has written a status for a machine. -/
def Ended (c : Chronicle) (id : MachineId) (job : Nat) (status : MachineStatus) : Prop :=
  ∃ x ∈ c.journal, x.job = job ∧ x.machine = id ∧ x.call = .setStatus status

theorem Ended.mono {c c' : Chronicle} {id : MachineId} {job : Nat} {status : MachineStatus}
    (h : c.Ended id job status) (hjournal : c.journal <+: c'.journal) :
    c'.Ended id job status := by
  obtain ⟨x, hx, hsigned⟩ := h
  exact ⟨x, hjournal.subset hx, hsigned⟩

/-- Nothing is stored for a machine while only others are served. -/
theorem Apart.entriesBy_eq {c c' : Chronicle} {id : MachineId} (h : Apart c c' id) (job : Nat) :
    c'.entriesBy job id = c.entriesBy job id := by
  obtain ⟨added, hjournal, hadded⟩ := h.journal
  unfold entriesBy
  have hnone : added.filter (fun x => x.job == job && x.machine == id) = [] := by
    refine List.filter_eq_nil_iff.mpr ?_
    intro x hx hsigned
    rw [Bool.and_eq_true, beq_iff_eq, beq_iff_eq] at hsigned
    exact hadded x hx hsigned.2
  rw [hjournal, List.filter_append, hnone, List.append_nil]

/-! ## Who writes -/

/-- Those who act for a machine do so in the job `last`, and those who write in the job `kept`. -/
structure Manned (c : Chronicle) (id : MachineId) (last kept : Nat) : Prop where
  le : kept ≤ last
  lt_next : last < c.nextJob
  actors : ∀ part job, c.Acts id part job → job = last
  writers : ∀ job, c.Acts id .writing job → job = kept
  /-- A job that has still to clear the log has not written yet. -/
  holders : ∀ job, c.Acts id .holding job → kept < job

namespace Manned

variable {c c' : Chronicle} {id : MachineId} {last kept job : Nat}

theorem of_acts (h : c.Manned id last kept) (hjobs : c.nextJob ≤ c'.nextJob)
    (hacts : ∀ part k, c'.Acts id part k → c.Acts id part k) : c'.Manned id last kept where
  le := h.le
  lt_next := Nat.lt_of_lt_of_le h.lt_next hjobs
  actors part k hk := h.actors part k (hacts _ _ hk)
  writers k hk := h.writers k (hacts _ _ hk)
  holders k hk := h.holders k (hacts _ _ hk)

/-- A job that writes has the log to itself. -/
theorem of_writing (hc : c.service.Exclusive) (hactor : c.Acts id .writing job)
    (hlt : job < c.nextJob) : c.Manned id job job where
  le := Nat.le_refl job
  lt_next := hlt
  actors part k hk := (hk.unique hc hactor).2
  writers k hk := (hk.unique hc hactor).2
  holders k hk := by cases (hk.unique hc hactor).1

/-- While a job holds the machine nobody writes. -/
theorem of_holding (hc : c.service.Exclusive) (hactor : c.Acts id .holding job)
    (hlt : job < c.nextJob) (hkept : kept < job) : c.Manned id job kept where
  le := Nat.le_of_lt hkept
  lt_next := hlt
  actors part k hk := (hk.unique hc hactor).2
  writers k hk := by cases (hk.unique hc hactor).1
  holders k hk := by rwa [(hk.unique hc hactor).2]

end Manned

/-! ## What is booked -/

/--
The entries of a machine follow one another job by job. No job behind `kept` has any, or has cleared
the log.
-/
structure Booked (c : Chronicle) (id : MachineId) (kept : Nat) : Prop where
  later : ∀ job, kept < job → c.entriesBy job id = []
  before : ∀ job k, job < k → ∀ e ∈ c.entriesBy job id, ∀ e' ∈ c.entriesBy k id, e.id < e'.id
  cleared : ∀ x ∈ c.journal, x.machine = id → x.call = .clearLog → x.job ≤ kept

namespace Booked

variable {c c' : Chronicle} {id : MachineId} {kept kept' : Nat}

/-- Nothing is stored. The log may have been cleared for a later job. -/
theorem advance (h : c.Booked id kept) (hle : kept ≤ kept')
    (hentries : ∀ k, c'.entriesBy k id = c.entriesBy k id)
    (hcleared : ∀ x ∈ c'.journal, x ∈ c.journal ∨
      (x.machine = id → x.call = .clearLog → x.job ≤ kept')) : c'.Booked id kept' where
  later k hk := by
    rw [hentries]
    exact h.later k (Nat.lt_of_le_of_lt hle hk)
  before j k hlt := by
    rw [hentries, hentries]
    exact h.before j k hlt
  cleared x hx hid hcall := by
    rcases hcleared x hx with hx | hx
    · exact Nat.le_trans (h.cleared x hx hid hcall) hle
    · exact hx hid hcall

/-- Something is stored in the job `kept`, with an id that no entry had before. -/
theorem noted (h : c.Booked id kept) {call : Write}
    (hlt : ∀ x ∈ c.journal, ∀ e ∈ x.entries, e.id < c.database.nextEntry) (hcall : call ≠ .clearLog)
    (hjournal : c'.journal = c.journal ++ [⟨kept, id, call, c.database.newEntries id call⟩]) :
    c'.Booked id kept := by
  have hown : c'.entriesBy kept id = c.entriesBy kept id ++ c.database.newEntries id call :=
    entriesBy_concat_self hjournal rfl rfl
  have hother : ∀ k, kept ≠ k → c'.entriesBy k id = c.entriesBy k id :=
    fun k hk => entriesBy_concat_other hjournal (Or.inl hk)
  have hnew : ∀ k, ∀ e ∈ c.entriesBy k id, ∀ e' ∈ c.database.newEntries id call, e.id < e'.id := by
    intro k e he e' he'
    obtain ⟨x, hx, -, -, hxe⟩ := mem_entriesBy.mp he
    rcases newEntries_cases c.database id call with hnil | ⟨new, hnew, -, hid, -⟩
    · rw [hnil] at he'
      cases he'
    · rw [hnew] at he'
      rw [List.mem_singleton.mp he', hid]
      exact hlt x hx e hxe
  refine ⟨?_, ?_, ?_⟩
  · intro k hk
    rw [hother k (Nat.ne_of_lt hk)]
    exact h.later k hk
  · intro j k hjk e he e' he'
    -- no job behind `kept` has entries, so that `j` is not the one that stores something
    rcases Nat.lt_or_ge kept k with hk | hk
    · rw [hother k (Nat.ne_of_lt hk), h.later k hk] at he'
      cases he'
    · rw [hother j (by omega)] at he
      by_cases hkept : kept = k
      · subst hkept
        rw [hown, List.mem_append] at he'
        rcases he' with he' | he'
        · exact h.before j kept hjk e he e' he'
        · exact hnew j e he e' he'
      · rw [hother k hkept] at he'
        exact h.before j k hjk e he e' he'
  · intro x hx hid hclear
    rw [hjournal] at hx
    rcases List.mem_append.mp hx with hx | hx
    · exact h.cleared x hx hid hclear
    · obtain rfl := List.mem_singleton.mp hx
      exact absurd hclear hcall

end Booked

/-! ## The log of one machine -/

/--
The last job that was begun for a machine is `last`, and what is stored in its log are the entries
of the job `kept`, all of them.
-/
structure Authored (c : Chronicle) (id : MachineId) (last kept : Nat) : Prop extends
    Manned c id last kept, Booked c id kept where
  stored : c.database.find? id ≠ none → c.database.entriesOf id = c.entriesBy kept id
  gone : c.database.find? id = none → c.database.entriesOf id = []
  /-- A terminal status was written in the last job. -/
  told : ∀ status : MachineStatus, status.isTerminal = true →
    c.database.statusOf? id = some status.word → c.Ended id last status

namespace Authored

variable {c c' : Chronicle} {id : MachineId} {last kept : Nat}

theorem apart (h : c.Authored id last kept) (hapart : Apart c c' id) :
    c'.Authored id last kept := by
  have hentries := hapart.entriesBy_eq
  obtain ⟨hagrees, hjobs, ⟨added, hjournal, hadded⟩, hacts⟩ := hapart
  refine ⟨h.of_acts hjobs hacts, h.advance (Nat.le_refl _) hentries ?_, ?_, ?_, ?_⟩
  · intro x hx
    rw [hjournal] at hx
    exact (List.mem_append.mp hx).imp_right fun hx hid => absurd hid (hadded x hx)
  · rw [hagrees.row, hagrees.entries, hentries]
    exact h.stored
  · rw [hagrees.row, hagrees.entries]
    exact h.gone
  · intro status hterminal hstatus
    rw [hagrees.statusOf?_eq] at hstatus
    exact (h.told status hterminal hstatus).mono ⟨_, hjournal.symm⟩

/-- Somebody who may write notes something. -/
theorem noted (h : c.Authored id last kept) {job : Nat} {call : Write}
    (hlt : ∀ x ∈ c.journal, ∀ e ∈ x.entries, e.id < c.database.nextEntry)
    (hactor : c.Acts id .writing job) (hcall : call.isProgress = true)
    (hdatabase : c'.database = (c.database.perform id call).2)
    (hjournal : c'.journal = c.journal ++ [⟨job, id, call, c.database.newEntries id call⟩])
    (hjobs : c'.nextJob = c.nextJob)
    (hacts : ∀ part job, c'.Acts id part job → c.Acts id part job) : c'.Authored id last kept := by
  obtain rfl := h.writers job hactor
  have hstatus : c'.database.statusOf? id = c.database.statusOf? id := by
    rw [hdatabase]
    exact statusOf?_perform _ id (Write.setsStatus_of_isProgress hcall) id
  have hrow : c'.database.find? id = none ↔ c.database.find? id = none := by
    rw [find?_eq_none_iff, hstatus, ← find?_eq_none_iff]
  have hclear : call ≠ .clearLog := by
    rintro rfl
    cases hcall
  have hlog : c'.database.entriesOf id =
      c.database.entriesOf id ++ c.database.newEntries id call := by
    rw [hdatabase]
    exact entriesOf_perform_of_ne _ id hclear
  refine ⟨h.of_acts (Nat.le_of_eq hjobs.symm) hacts, h.toBooked.noted hlt hclear hjournal,
    ?_, ?_, ?_⟩
  · intro hfound
    rw [hlog, entriesBy_concat_self hjournal rfl rfl, h.stored fun hnone => hfound (hrow.mpr hnone)]
  · intro hnone
    have hunknown := not_knows_of_find? (hrow.mp hnone)
    rw [hlog, h.gone (hrow.mp hnone), newEntries_of_unknown hunknown]
    rfl
  · intro status hterminal htold
    rw [hstatus] at htold
    exact (h.told status hterminal htold).mono ⟨_, hjournal.symm⟩

/-- Somebody who acts writes a status. -/
theorem concluded (h : c.Authored id last kept) {part : Part} {job : Nat} {status : MachineStatus}
    (hactor : c.Acts id part job)
    (hdatabase : c'.database = (c.database.perform id (.setStatus status)).2)
    (hjournal : c'.journal = c.journal ++ [⟨job, id, .setStatus status, []⟩])
    (hjobs : c'.nextJob = c.nextJob)
    (hacts : ∀ part job, c'.Acts id part job → c.Acts id part job) : c'.Authored id last kept := by
  obtain rfl := h.actors part job hactor
  have hstatus : c'.database.statusOf? id = (c.database.statusOf? id).map fun _ => status.word := by
    rw [hdatabase]
    exact statusOf?_setStatus _ id status
  have hrow : c'.database.find? id = none ↔ c.database.find? id = none := by
    rw [find?_eq_none_iff, hstatus, Option.map_eq_none_iff, ← find?_eq_none_iff]
  have hlog : c'.database.entriesOf id = c.database.entriesOf id := by
    rw [hdatabase]
    rfl
  have hentries : ∀ k, c'.entriesBy k id = c.entriesBy k id :=
    fun k => entriesBy_concat_other hjournal (Or.inr rfl)
  have hmem : ∀ x, x ∈ c'.journal ↔ x ∈ c.journal ∨ x = ⟨job, id, .setStatus status, []⟩ := by
    intro x
    rw [hjournal, List.mem_append, List.mem_singleton]
  refine ⟨h.of_acts (Nat.le_of_eq hjobs.symm) hacts, h.advance (Nat.le_refl _) hentries ?_,
    ?_, ?_, ?_⟩
  · intro x hx
    refine ((hmem x).mp hx).imp_right ?_
    rintro rfl - hclear
    cases hclear
  · intro hfound
    rw [hlog, hentries, h.stored fun hnone => hfound (hrow.mpr hnone)]
  · intro hnone
    rw [hlog, h.gone (hrow.mp hnone)]
  · intro shown hterminal htold
    rw [hstatus] at htold
    obtain ⟨_, -, hword⟩ := Option.map_eq_some_iff.mp htold
    obtain rfl := MachineStatus.word_injective hword
    exact ⟨_, (hmem _).mpr (Or.inr rfl), rfl, rfl, rfl⟩

/-- The job that holds the machine clears the log. From then on the log is its own. -/
theorem renewed (h : c.Authored id last kept) (hc' : c'.service.Exclusive) {job : Nat}
    (hactor : c.Acts id .holding job)
    (hdatabase : c'.database = (c.database.perform id .clearLog).2)
    (hjournal : c'.journal = c.journal ++ [⟨job, id, .clearLog, []⟩])
    (hjobs : c'.nextJob = c.nextJob) (hactor' : c'.Acts id .writing job) :
    c'.Authored id job job := by
  obtain rfl := h.actors .holding job hactor
  have hkept : kept < job := h.holders job hactor
  have hrow : c'.database.find? id = c.database.find? id := by
    rw [hdatabase]
    rfl
  have hlog : c'.database.entriesOf id = [] := by
    rw [hdatabase]
    exact entriesOf_clearLog c.database id
  have hentries : ∀ k, c'.entriesBy k id = c.entriesBy k id :=
    fun k => entriesBy_concat_other hjournal (Or.inr rfl)
  refine ⟨.of_writing hc' hactor' (hjobs ▸ h.lt_next), h.advance h.le hentries ?_, ?_,
    fun _ => hlog, ?_⟩
  · intro x hx
    rw [hjournal] at hx
    refine (List.mem_append.mp hx).imp_right fun hx _ _ => ?_
    obtain rfl := List.mem_singleton.mp hx
    exact Nat.le_refl job
  · intro _
    rw [hlog, hentries, h.later job hkept]
  · intro status hterminal htold
    unfold statusOf? at htold
    rw [hrow] at htold
    exact (h.told status hterminal htold).mono ⟨_, hjournal.symm⟩

/-- A job begins: it holds the machine, or the machine is new and the log its own. -/
theorem begun (h : c.Authored id last kept) {part : Part} (hc' : c'.service.Exclusive)
    (hprovisioning : c'.database.statusOf? id = some MachineStatus.provisioning.word)
    (hlog : c'.database.entriesOf id = c.database.entriesOf id)
    (hnew : part = .writing ∧ c.database.find? id = none ∨
      part = .holding ∧ c.database.find? id ≠ none)
    (hjournal : c'.journal = c.journal) (hjobs : c'.nextJob = c.nextJob + 1)
    (hactor : c'.Acts id part c.nextJob) :
    ∃ kept', (kept' = kept ∨ c.database.find? id = none) ∧ c'.Authored id c.nextJob kept' := by
  have hentries := fun k => entriesBy_of_eq hjournal k id
  have hlt : kept < c.nextJob := Nat.lt_of_le_of_lt h.le h.lt_next
  have hnext : c.nextJob < c'.nextJob := by omega
  have htold : ∀ status : MachineStatus, status.isTerminal = true →
      c'.database.statusOf? id = some status.word → c'.Ended id c.nextJob status := by
    intro status hterminal hstatus
    rw [hprovisioning] at hstatus
    exact absurd (MachineStatus.word_injective (Option.some.inj hstatus)).symm
      (MachineStatus.isTerminal_iff.mp hterminal)
  have hfound : c'.database.find? id ≠ none := by
    intro hnone
    rw [find?_eq_none_iff, hprovisioning] at hnone
    cases hnone
  have hcleared : ∀ x ∈ c'.journal, x ∈ c.journal := fun x hx => hjournal ▸ hx
  -- a new machine has an empty log, and one that is held keeps the log of the job before
  rcases hnew with ⟨rfl, hnone⟩ | ⟨rfl, hsome⟩
  · refine ⟨c.nextJob, Or.inr hnone, .of_writing hc' hactor hnext,
      h.advance (Nat.le_of_lt hlt) hentries fun x hx => Or.inl (hcleared x hx), ?_,
      fun hnone => absurd hnone hfound, htold⟩
    intro _
    rw [hlog, h.gone hnone, hentries, h.later _ hlt]
  · refine ⟨kept, Or.inl rfl, .of_holding hc' hactor hnext hlt,
      h.advance (Nat.le_refl _) hentries fun x hx => Or.inl (hcleared x hx), ?_,
      fun hnone => absurd hnone hfound, htold⟩
    intro _
    rw [hlog, h.stored hsome, hentries]

/-- The machine is deleted with its log. -/
theorem erased (h : c.Authored id last kept) (hdatabase : c'.database = (c.database.erase id).2)
    (hjournal : c'.journal = c.journal) (hjobs : c'.nextJob = c.nextJob)
    (hacts : ∀ part job, c'.Acts id part job → c.Acts id part job) : c'.Authored id last kept := by
  have hrow : c'.database.find? id = none := by
    rw [hdatabase]
    exact find?_erase_self c.database id
  have hlog : c'.database.entriesOf id = [] := by
    rw [hdatabase]
    exact entriesOf_clearLog c.database id
  refine ⟨h.of_acts (Nat.le_of_eq hjobs.symm) hacts,
    h.advance (Nat.le_refl _) (fun k => entriesBy_of_eq hjournal k id)
      (fun x hx => Or.inl (hjournal ▸ hx)),
    fun hfound => absurd hrow hfound, fun _ => hlog, ?_⟩
  intro status _ htold
  rw [find?_eq_none_iff.mp hrow] at htold
  cases htold

/--
**One job after the other has the log of a machine to itself.** Another one gets it only if the log
is cleared or the machine is new.
-/
theorem change (h : c.Authored id last kept) (hc' : c'.service.Exclusive)
    (hlt : ∀ x ∈ c.journal, ∀ e ∈ x.entries, e.id < c.database.nextEntry)
    (hchange : Change c c') :
    ∃ last' kept', c'.Authored id last' kept' ∧
      (kept' = kept ∨ c.database.find? id = none ∨ c'.clearings id = c.clearings id + 1) := by
  cases hchange.changeAt id with
  | apart hapart => exact ⟨last, kept, h.apart hapart, Or.inl rfl⟩
  | noted job call hactor hcall hdatabase hjournal hjobs hacts =>
    exact ⟨last, kept, h.noted hlt hactor hcall hdatabase hjournal hjobs hacts, Or.inl rfl⟩
  | concluded part job status hactor hdatabase hjournal hjobs hacts =>
    exact ⟨last, kept, h.concluded hactor hdatabase hjournal hjobs hacts, Or.inl rfl⟩
  | renewed job hactor hdatabase hjournal hjobs hactor' =>
    refine ⟨job, job, h.renewed hc' hactor hdatabase hjournal hjobs hactor', Or.inr (Or.inr ?_)⟩
    unfold clearings
    rw [hjournal, List.countP_append]
    simp
  | begun part hprovisioning hlog hnew hjournal hjobs hactor =>
    obtain ⟨kept', hkept, hauthored⟩ :=
      h.begun hc' hprovisioning hlog hnew hjournal hjobs hactor
    exact ⟨_, kept', hauthored, hkept.imp_right Or.inl⟩
  | erased hdatabase hjournal hjobs hacts =>
    exact ⟨last, kept, h.erased hdatabase hjournal hjobs hacts, Or.inl rfl⟩

/-- What is stored was stored in the job whose log it is. -/
theorem mem_entriesBy (h : c.Authored id last kept) {e : LogEntry}
    (he : e ∈ c.database.entriesOf id) : e ∈ c.entriesBy kept id := by
  have hfound : c.database.find? id ≠ none := by
    intro hnone
    rw [h.gone hnone] at he
    cases he
  rwa [h.stored hfound] at he

end Authored

end Api.Chronicle

end Provisioner
