import Provisioner.Proofs.Api.Authorship
import Provisioner.Proofs.Api.Jobs

/-!
# The log of a machine is that of one run

Whatever requests and runs do side by side, the log of a machine holds the lines of one job, all of
them, and each job has one run at most (`Chronicle.log_of_one_job`). `Chronicle.Regular` gathers what
holds at every moment.
-/

namespace Provisioner

open Database

namespace Api.Chronicle

/-! ## All machines -/

theorem Change.logChange {c c' : Chronicle} (h : Change c c') :
    c.database.LogChange c'.database := by
  cases h with
  | rests hdatabase _ _ _ =>
    rw [hdatabase]
    exact .refl _
  | wrote id part job call _ _ hdatabase _ _ _ _ =>
    rw [hdatabase]
    exact logChange_perform _ id call
  | recorded new row hdatabase _ _ _ _ => exact logChange_insert hdatabase
  | restarted id row _ hdatabase _ _ _ _ =>
    rw [hdatabase]
    exact logChange_beginReprovision _ id
  | erased id hdatabase _ _ _ =>
    rw [hdatabase]
    exact logChange_erase _ id

/-- What holds of the service and of the journal at every moment. -/
structure Regular (c : Chronicle) : Prop where
  exclusive : c.service.Exclusive
  paired : c.Paired
  distinct : c.Distinct
  ordered : c.database.LogOrdered
  lt_next : ∀ x ∈ c.journal, ∀ e ∈ x.entries, e.id < c.database.nextEntry
  authored : ∀ id, ∃ last kept, c.Authored id last kept

namespace Regular

variable {c : Chronicle} {setup : Setup}

theorem lt_next_of_change {c' : Chronicle} (h : c.Regular) (hchange : Change c c') :
    ∀ x ∈ c'.journal, ∀ e ∈ x.entries, e.id < c'.database.nextEntry := by
  have hold : ∀ x ∈ c.journal, ∀ e ∈ x.entries, e.id < c'.database.nextEntry :=
    fun x hx e he => Int.lt_of_lt_of_le (h.lt_next x hx e he) hchange.logChange.next_le
  cases hchange with
  | rests _ hjournal _ _ | recorded _ _ _ hjournal _ _ _ | restarted _ _ _ _ hjournal _ _ _
  | erased _ _ hjournal _ _ =>
    rw [hjournal]
    exact hold
  | wrote id part job call _ _ hdatabase hjournal _ _ _ =>
    intro x hx e he
    rw [hjournal, List.mem_append, List.mem_singleton] at hx
    rcases hx with hx | rfl
    · exact hold x hx e he
    · rcases newEntries_cases c.database id call with hnil | ⟨new, hnew, -, hid, hnext⟩
      · replace he : e ∈ c.database.newEntries id call := he
        rw [hnil] at he
        cases he
      · replace he : e ∈ c.database.newEntries id call := he
        rw [hnew] at he
        rw [List.mem_singleton.mp he, hid, hdatabase, hnext]
        omega

theorem change_next (h : c.Regular) (setup : Setup) (e : Event) : Change c (c.next setup e) :=
  Chronicle.change_next h.paired h.exclusive.orderly setup e

theorem exclusive_next (h : c.Regular) {e : Event} (he : c.service.Fresh e) :
    (c.next setup e).service.Exclusive := by
  rw [service_next]
  exact h.exclusive.next he

theorem change {c' : Chronicle} (h : c.Regular) (hchange : Change c c')
    (hexclusive : c'.service.Exclusive) (hpaired : c'.Paired) (hdistinct : c'.Distinct) :
    c'.Regular where
  exclusive := hexclusive
  paired := hpaired
  distinct := hdistinct
  ordered := hchange.logChange.logOrdered h.ordered
  lt_next := h.lt_next_of_change hchange
  authored id := by
    obtain ⟨last, kept, hauthored⟩ := h.authored id
    obtain ⟨last', kept', hauthored', -⟩ := hauthored.change hexclusive h.lt_next hchange
    exact ⟨last', kept', hauthored'⟩

theorem next (h : c.Regular) {e : Event} (he : c.service.Fresh e) : (c.next setup e).Regular :=
  h.change (h.change_next setup e) (h.exclusive_next he)
    (h.paired.next h.exclusive.orderly setup e)
    (h.distinct.next h.paired h.exclusive.orderly setup e)

/-- **The log of every machine stays that of one job, whatever happens.** -/
theorem play (h : c.Regular) {events : List Event}
    (hfresh : Service.AllFresh setup c.service events) : (c.play setup events).Regular := by
  induction events generalizing c with
  | nil => exact h
  | cons e events ih =>
    rw [play_cons]
    refine ih (h.next hfresh.1) ?_
    rw [service_next]
    exact hfresh.2

end Regular

/-! ## From the start -/

/-- What stands in the tables at the start, as if it were written for job 0. -/
def inherited (db : Database) : List Signed :=
  db.log.map (fun e => ⟨0, e.machine, .append e.line, [e]⟩) ++
    db.machines.filterMap fun m =>
      (MachineStatus.ofWord? m.status).map fun status => ⟨0, m.id, .setStatus status, []⟩

/-- The chronicle before the first request. -/
def booted (database : Database) (servers issued : List MachineId) : Chronicle :=
  ⟨.booted database servers issued, 1, [], [], inherited database⟩

section Booted

variable {db : Database} {servers issued : List MachineId}

theorem mem_inherited {x : Signed} (h : x ∈ inherited db) :
    x.job = 0 ∧ x.call ≠ .clearLog ∧ ∀ e ∈ x.entries, e ∈ db.log := by
  rcases List.mem_append.mp h with h | h
  · obtain ⟨e, he, rfl⟩ := List.mem_map.mp h
    refine ⟨rfl, nofun, ?_⟩
    intro e' he'
    rw [List.mem_singleton.mp he']
    exact he
  · obtain ⟨m, -, hm⟩ := List.mem_filterMap.mp h
    obtain ⟨status, -, rfl⟩ := Option.map_eq_some_iff.mp hm
    exact ⟨rfl, nofun, nofun⟩

theorem not_acts_booted (id : MachineId) (part : Part) (job : Nat) :
    ¬(booted db servers issued).Acts id part job := by
  intro h
  cases h with
  | request t h _ =>
    obtain ⟨n, hn, -⟩ := h
    cases hn
  | run active h _ _ _ =>
    obtain ⟨n, hn, -⟩ := h
    cases hn

theorem not_pending_booted (n job : Nat) : ¬(booted db servers issued).Pending n job := by
  rintro ⟨t, hn, -⟩
  cases hn

theorem entriesBy_booted (id : MachineId) :
    (booted db servers issued).entriesBy 0 id = db.entriesOf id := by
  show ((inherited db).filter _).flatMap _ = _
  unfold inherited
  rw [List.filter_append, List.flatMap_append]
  have hlog : ((db.log.map fun e => Signed.mk 0 e.machine (.append e.line) [e]).filter
      fun x => x.job == 0 && x.machine == id).flatMap (·.entries) = db.entriesOf id := by
    rw [List.filter_map, List.flatMap_map]
    show (List.flatMap (fun e => [e]) _) = _
    rw [List.flatMap_singleton']
    rfl
  have hrows : ∀ x ∈ (db.machines.filterMap fun m => (MachineStatus.ofWord? m.status).map
      fun status => Signed.mk 0 m.id (.setStatus status) []).filter
        fun x => x.job == 0 && x.machine == id, x.entries = [] := by
    intro x hx
    obtain ⟨m, -, hm⟩ := List.mem_filterMap.mp (List.mem_filter.mp hx).1
    obtain ⟨status, -, rfl⟩ := Option.map_eq_some_iff.mp hm
    rfl
  rw [hlog, List.flatMap_eq_nil_iff.mpr hrows, List.append_nil]

theorem authored_booted (hknown : ∀ e ∈ db.log, db.knows e.machine = true) (id : MachineId) :
    (booted db servers issued).Authored id 0 0 := by
  have hlater : ∀ job, 0 < job → (booted db servers issued).entriesBy job id = [] := by
    intro job hjob
    refine List.eq_nil_iff_forall_not_mem.mpr ?_
    intro e he
    obtain ⟨x, hx, hxjob, -⟩ := mem_entriesBy.mp he
    have := (mem_inherited hx).1
    omega
  have hmanned : (booted db servers issued).Manned id 0 0 := by
    refine ⟨Nat.le_refl 0, Nat.one_pos, ?_, ?_, ?_⟩
    · exact fun part job h => absurd h (not_acts_booted id part job)
    · exact fun job h => absurd h (not_acts_booted id .writing job)
    · exact fun job h => absurd h (not_acts_booted id .holding job)
  have hbooked : (booted db servers issued).Booked id 0 := by
    refine ⟨hlater, ?_, ?_⟩
    · intro j k hlt e _ e' he'
      rw [hlater k (by omega)] at he'
      cases he'
    · intro x hx _ hclear
      exact absurd hclear (mem_inherited hx).2.1
  refine ⟨hmanned, hbooked, fun _ => (entriesBy_booted id).symm, ?_, ?_⟩
  · intro hnone
    refine List.filter_eq_nil_iff.mpr ?_
    intro e he hid
    have hknows := hknown e he
    rw [beq_iff_eq.mp hid] at hknows
    exact not_knows_of_find? hnone hknows
  · intro status _ hstatus
    obtain ⟨m, hm, hword⟩ := Option.map_eq_some_iff.mp hstatus
    refine ⟨⟨0, m.id, .setStatus status, []⟩, ?_, rfl, id_of_find? hm, rfl⟩
    refine List.mem_append_right _ (List.mem_filterMap.mpr ⟨m, mem_of_find? hm, ?_⟩)
    rw [hword, MachineStatus.ofWord?_word]
    rfl

theorem regular_booted (hordered : db.LogOrdered) (hknown : ∀ e ∈ db.log, db.knows e.machine = true)
    (hissued : ∀ m ∈ db.machines, m.id ∈ issued) : (booted db servers issued).Regular where
  exclusive := Service.exclusive_booted hissued servers
  paired := ⟨rfl, rfl⟩
  distinct :=
    ⟨Nat.one_pos, fun h => absurd h (not_pending_booted _ _),
      fun h => absurd h (not_pending_booted _ _), List.Pairwise.nil,
      fun h => absurd h (not_pending_booted _ _), nofun⟩
  ordered := hordered
  lt_next _ hx e he := hordered.lt_next e ((mem_inherited hx).2.2 e he)
  authored id := ⟨0, 0, authored_booted hknown id⟩

end Booted

/--
**The log of a machine is that of one run.** The service starts with any tables and the provider
never hands out an id twice. In whatever order requests and runs go on, whichever statements fail
and whichever requests are dropped:

* each job has at most one run, and every write of a run is signed with its job;
* what is stored for a machine is all that one job has written for it, in the order in which it was
  written, or nothing if the machine is gone; no other job has written any of it;
* once a job has cleared the log, it is that job or a later one.
-/
theorem log_of_one_job {setup : Setup} {db : Database} {servers issued : List MachineId}
    (hordered : db.LogOrdered) (hknown : ∀ e ∈ db.log, db.knows e.machine = true)
    (hissued : ∀ m ∈ db.machines, m.id ∈ issued) {events : List Event}
    (hfresh : Service.AllFresh setup (.booted db servers issued) events) (id : MachineId) :
    let c := (booted db servers issued).play setup events
    c.service = (Service.booted db servers issued).play setup events ∧
    (c.runJobs.length = c.service.world.runs.length ∧ c.runJobs.Nodup) ∧
    ∃ job,
      (c.database.entriesOf id = c.entriesBy job id ∨
        c.database.find? id = none ∧ c.database.entriesOf id = []) ∧
      (c.database.entriesOf id).Pairwise (·.id < ·.id) ∧
      (∀ other, other ≠ job → ∀ e ∈ c.database.entriesOf id, e ∉ c.entriesBy other id) ∧
      ∀ x ∈ c.journal, x.machine = id → x.call = .clearLog → x.job ≤ job := by
  intro c
  have hregular : c.Regular := (regular_booted hordered hknown hissued).play hfresh
  obtain ⟨last, kept, hauthored⟩ := hregular.authored id
  refine ⟨service_play setup _ events, ⟨hregular.paired.runs, hregular.distinct.runs⟩, kept, ?_,
    hregular.ordered.sorted_entriesOf id, ?_, hauthored.cleared⟩
  · by_cases hfound : c.database.find? id = none
    · exact Or.inr ⟨hfound, hauthored.gone hfound⟩
    · exact Or.inl (hauthored.stored hfound)
  · intro other hne e he hother
    -- the entries of two jobs have ids on two sides
    rcases Nat.lt_or_gt_of_ne hne with hlt | hgt
    · exact Int.lt_irrefl _
        (hauthored.before other kept hlt e hother e (hauthored.mem_entriesBy he))
    · rw [hauthored.later other hgt] at hother
      cases hother

/-! ## A reprovision and a creation, side by side -/

/-- Both runs have started and write by turns. -/
def writingByTurns : List Event :=
  Service.mixedEvents ++ List.replicate 6 (.step 2 Service.calmOutside) ++
    [.run 0 none, .run 1 none, .run 0 none, .run 1 none]

/-- The chronicle after that. -/
def afterTurns : Chronicle :=
  (booted Service.interruptedTables.withoutInterrupted [1] [1]).play Service.plainSetup
    writingByTurns

theorem logOrdered_withoutInterrupted : Service.interruptedTables.withoutInterrupted.LogOrdered where
  sorted := by decide +kernel
  pos := by decide +kernel
  lt_next := by decide +kernel
  next_pos := by decide +kernel

theorem log_of_one_job_afterTurns :
    Service.interruptedTables.withoutInterrupted.LogOrdered ∧
    (∀ e ∈ Service.interruptedTables.withoutInterrupted.log,
      Service.interruptedTables.withoutInterrupted.knows e.machine = true) ∧
    (∀ m ∈ Service.interruptedTables.withoutInterrupted.machines, m.id ∈ [(1 : MachineId)]) ∧
    Service.AllFresh Service.plainSetup
      (.booted Service.interruptedTables.withoutInterrupted [1] [1]) writingByTurns ∧
    (afterTurns.database.entriesOf 1).map (·.line) =
      ["Re-provisioning server...", "Checking SSH on 192.0.2.1:22..."] ∧
    (afterTurns.database.entriesOf 2).map (·.line) =
      ["Creating server...", "Server created: db (192.0.2.2)",
        "Waiting for SSH to become available..."] ∧
    ∀ id, ∃ job,
      (afterTurns.database.entriesOf id = afterTurns.entriesBy job id ∨
        afterTurns.database.find? id = none ∧ afterTurns.database.entriesOf id = []) ∧
      ∀ x ∈ afterTurns.journal, x.machine = id → x.call = .clearLog → x.job ≤ job := by
  have hknown : ∀ e ∈ Service.interruptedTables.withoutInterrupted.log,
      Service.interruptedTables.withoutInterrupted.knows e.machine = true := by
    decide +kernel
  have hissued : ∀ m ∈ Service.interruptedTables.withoutInterrupted.machines,
      m.id ∈ [(1 : MachineId)] := by
    decide +kernel
  have hfresh : Service.AllFresh Service.plainSetup
      (.booted Service.interruptedTables.withoutInterrupted [1] [1]) writingByTurns := by
    decide +kernel
  refine ⟨logOrdered_withoutInterrupted, hknown, hissued, hfresh, by decide +kernel,
    by decide +kernel, ?_⟩
  intro id
  obtain ⟨-, -, job, hstored, -, -, hcleared⟩ :=
    log_of_one_job logOrdered_withoutInterrupted hknown hissued hfresh id
  exact ⟨job, hstored, hcleared⟩

end Api.Chronicle

end Provisioner
