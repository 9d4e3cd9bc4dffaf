import Provisioner.Proofs.Api.Exclusion
import Provisioner.Proofs.Api.Stroke
import Provisioner.Proofs.Pointwise
import Provisioner.Proofs.Run.Effect
import Provisioner.Proofs.Store.Shown

/-!
# Rows agree with the runs that wrote them

The status of a machine and what was extracted from its run's output are written by different steps
of different code, and each of them may fail. All the same a machine that is shown as failed shows
nothing extracted, and one that is shown as ready has a latest run that was a success.

What carries this through the middle of a run is what is still to come of it (`Service.Stands`): the
writes that are left are the last of those that the run makes, it is the latest run of its machine,
and if it is going to fail then nothing extracted is shown.
-/

namespace Provisioner

open Database

/-! ## What is left of a run -/

namespace Script

variable {script : Script} {rest : List Write}

/-- A script that is silent makes no writes. -/
theorem Silent.makes_eq (h : script.Silent) (hmakes : script.Makes rest) : rest = [] := by
  induction h with
  | done =>
    cases hmakes
    rfl
  | notify _ ih =>
    cases hmakes with
    | notify hnext => exact ih hnext

/-- What is written for a line is nothing extracted. -/
theorem notesOutput_of_mem_lineWrites {line : String} {call : Write} (h : call ∈ lineWrites line) :
    call.notesOutput = false := by
  unfold lineWrites at h
  rcases List.mem_cons.mp h with rfl | h
  · rfl
  · split at h
    · rw [List.mem_singleton.mp h]
      rfl
    · cases h

end Script

namespace Run

variable {run : Run} {equipment : Equipment} {c : Circumstances}

/-- A run that fails notes nothing extracted. -/
theorem notesOutput_of_failed (h : run.status equipment c = .failed) {call : Write}
    (hcall : call ∈ run.notes equipment c) : call.notesOutput = false := by
  rcases List.mem_append.mp hcall with hmem | hmem
  · obtain ⟨line, -, hmem⟩ := List.mem_flatMap.mp hmem
    exact Script.notesOutput_of_mem_lineWrites hmem
  · cases hresult : (run.report equipment c).result with
    | ok wallet =>
      rw [status_of_ok hresult] at h
      cases h
    | error failure =>
      rw [hresult] at hmem
      exact Script.notesOutput_of_mem_lineWrites hmem

/-- The next of the writes that are left: the status, or a note before it. -/
theorem cases_of_suffix {call : Write} {rest : List Write}
    (h : call :: rest <:+ run.writes equipment c) :
    (rest = [] ∧ call = .setStatus (run.status equipment c)) ∨
      (call.isProgress = true ∧ (run.status equipment c = .failed → call.notesOutput = false)) := by
  obtain ⟨before, hbefore⟩ := h
  unfold writes at hbefore
  cases List.eq_nil_or_concat rest with
  | inl hnil =>
    subst hnil
    have hlast := (List.append_inj' hbefore rfl).2
    exact Or.inl ⟨rfl, (List.cons.inj hlast).1⟩
  | inr hconcat =>
    obtain ⟨first, last, rfl⟩ := hconcat
    have hnotes : before ++ call :: first = run.notes equipment c := by
      have hsplit : (before ++ call :: first) ++ [last] = run.notes equipment c ++
          [.setStatus (run.status equipment c)] := by simpa using hbefore
      exact (List.append_inj' hsplit rfl).1
    have hmem : call ∈ run.notes equipment c := by
      rw [← hnotes]
      simp
    exact Or.inr ⟨isProgress_of_mem_notes hmem, fun hfailed => notesOutput_of_failed hfailed hmem⟩

end Run

namespace Api

/-! ## Requests -/

namespace Task

/-- A request that announces a machine notes nothing extracted. -/
def Quiet : Task → Prop
  | .announcing _ _ script =>
    ∃ writes, script.Makes writes ∧
      ∀ call ∈ writes, call.isProgress = true ∧ call.notesOutput = false
  | _ => True

section Quiet

variable {setup : Setup} {o : Outside} {w : World} {t : Task}

theorem quiet_announcement (row : Machine) (inputs : Inputs) :
    (announcing row inputs (announcement row)).Quiet := by
  refine ⟨_, Script.makes_logLines _ .done, ?_⟩
  intro call hcall
  rw [List.append_nil] at hcall
  obtain ⟨line, -, hmem⟩ := List.mem_flatMap.mp hcall
  exact ⟨Script.isProgress_of_mem_lineWrites hmem, Script.notesOutput_of_mem_lineWrites hmem⟩

theorem quiet_statement {fault : Option DatabaseFailure} {r : Task × World} (h : r.1.Quiet) :
    (statement fault w r).1.Quiet := by
  unfold statement
  split
  · trivial
  · exact h

theorem quiet_withMachine {id : MachineId} {next : Machine → Task} (h : ∀ m, (next m).Quiet) :
    (withMachine w id next).Quiet := by
  unfold withMachine
  split
  · exact h _
  · trivial

theorem quiet_announcing {row : Machine} {inputs : Inputs} {script : Script}
    (h : (announcing row inputs script).Quiet) :
    ((announcing row inputs script).step setup o w).1.Quiet := by
  obtain ⟨writes, hmakes, hwrites⟩ := h
  cases hmakes with
  | done => trivial
  | notify hnext => exact ⟨writes, hnext, hwrites⟩
  | write hnext =>
    exact ⟨_, hnext _, fun call hcall => hwrites call (List.mem_cons_of_mem _ hcall)⟩

/-- A quiet request stays quiet. -/
theorem Quiet.step (h : t.Quiet) : (t.step setup o w).1.Quiet := by
  cases t with
  | announcing row inputs script => exact quiet_announcing h
  | recording server inputs =>
    refine quiet_statement ?_
    split
    · trivial
    · exact quiet_announcement _ inputs
  | creating name inputs =>
    unfold Task.step
    cases o.creation.result <;> trivial
  | resetting id =>
    refine quiet_statement ?_
    simp only
    split <;> trivial
  | refusing id => exact quiet_statement (quiet_withMachine fun _ => trivial)
  | clearing row =>
    unfold Task.step World.write
    cases o.fault <;> trivial
  | repairing id failure =>
    unfold Task.step World.write
    cases o.fault <;> trivial
  | finding id => exact quiet_statement (quiet_withMachine fun _ => trivial)
  | dismissing id =>
    obtain ⟨servers, ⟨failure, hstep⟩ | hstep⟩ := Task.step_dismissing_cases setup o id w
    · rw [hstep]
      trivial
    · rw [hstep]
      trivial
  | erasing id => exact quiet_statement trivial
  | listing => exact quiet_statement trivial
  | showing id => exact quiet_statement (quiet_withMachine fun _ => trivial)
  | findingLog id after => exact quiet_statement (quiet_withMachine fun _ => trivial)
  | readingLog id after => exact quiet_statement trivial
  | opening id =>
    unfold Task.step
    cases o.fault with
    | some failure => trivial
    | none =>
      simp only
      split <;> trivial
  | _ => trivial

/-- The write that a quiet request makes notes nothing extracted, and no status but that of failure. -/
theorem Quiet.write (h : t.Quiet) {id : MachineId} {call : Write} (hcall : t.write? = some (id, call)) :
    call.notesOutput = false ∧ (call.setsStatus = false ∨ call = .setStatus .failed) := by
  cases t with
  | announcing row inputs script =>
    obtain ⟨writes, hmakes, hwrites⟩ := h
    cases hmakes with
    | write _ =>
      cases hcall
      obtain ⟨hprogress, houtput⟩ := hwrites call List.mem_cons_self
      exact ⟨houtput, Or.inl (Write.setsStatus_of_isProgress hprogress)⟩
    | _ => cases hcall
  | clearing row =>
    cases hcall
    exact ⟨rfl, Or.inl rfl⟩
  | repairing id failure =>
    cases hcall
    exact ⟨rfl, Or.inr rfl⟩
  | _ => cases hcall

end Quiet

theorem Initial.quiet {t : Task} (h : t.Initial) : t.Quiet := by
  cases h <;> trivial

end Task

/-! ## The runs that were started -/

/-- Runs with what happened during them, in the order in which they were started. -/
abbrev Starts := List (Run × Circumstances)

namespace Starts

/-- The latest run of a machine. -/
def latest? (starts : Starts) (id : MachineId) : Option (Run × Circumstances) :=
  (starts.filter (·.1.machine == id)).getLast?

theorem latest?_concat (starts : Starts) (start : Run × Circumstances) (id : MachineId) :
    latest? (starts ++ [start]) id =
      if start.1.machine = id then some start else latest? starts id := by
  unfold latest?
  rw [List.filter_append]
  by_cases h : start.1.machine = id
  · simp [h]
  · simp [h]

end Starts

namespace Service

/-- The run that starts in an event, with what will happen during it. -/
def start? (s : Service) : Event → Option (Run × Circumstances)
  | .step n o =>
    match s.tasks[n]? with
    | some (.starting _ run) => some (run, o.run)
    | _ => none
  | _ => none

/-- The runs that start in the course of some events. -/
def starts (setup : Setup) : Service → List Event → Starts
  | _, [] => []
  | s, e :: events => (s.start? e).toList ++ starts setup (s.next setup e) events

/-! ## The invariant -/

/-- The tables. -/
abbrev database (s : Service) : Database := s.world.database

/-- What is known of a run that was started, of which the writes `rest` are left. -/
structure Stands (equipment : Equipment) (db : Database) (starts : Starts) (active : ActiveRun)
    (start : Run × Circumstances) (rest : List Write) : Prop where
  same : active.run = start.1
  makes : active.script.Makes rest
  suffix : rest <:+ start.1.writes equipment start.2
  latest : rest ≠ [] → starts.latest? active.run.machine = some start
  blank : rest ≠ [] → start.1.status equipment start.2 = .failed → db.Blank active.run.machine

/-- A machine that is stored as failed is stored with nothing extracted. -/
def BlankIfFailed (db : Database) (id : MachineId) : Prop :=
  ∀ m, db.find? id = some m → m.status = MachineStatus.failed.word → m.extractedOutput = ""

/-- Whether the row of a machine may show a status, given what was shown at the start. -/
structure Shows (equipment : Equipment) (origin : Database) (starts : Starts) (id : MachineId)
    (status output : String) : Prop where
  failed : BlankIfFailed origin id → status = MachineStatus.failed.word → output = ""
  ready : status = MachineStatus.ready.word →
    (∃ start, starts.latest? id = some start ∧ start.1.status equipment start.2 = .ready) ∨
      (starts.latest? id = none ∧ origin.statusOf? id = some MachineStatus.ready.word)

/-- The rows agree with the runs, and those who act will keep it so. -/
structure Consistent (equipment : Equipment) (origin : Database) (s : Service) (starts : Starts) :
    Prop where
  quiet : ∀ t ∈ s.tasks, t.Quiet
  length : s.world.runs.length = starts.length
  runs : ∀ (n : Nat) active start, s.world.runs[n]? = some active → starts[n]? = some start →
    ∃ rest, Stands equipment s.database starts active start rest
  triggers : ∀ t ∈ s.tasks, ∀ id part, t.part? = some (id, part) → s.database.Blank id
  rows : ∀ id status output, s.database.shown? id = some (status, output) →
    Shows equipment origin starts id status output

variable {setup : Setup} {origin : Database} {s : Service} {starts : Starts} {n : Nat} {t t' : Task}
  {w : World} {id : MachineId}

theorem consistent_booted {db : Database} {servers issued : List MachineId} :
    Consistent setup.equipment db (booted db servers issued) [] where
  quiet := fun _ ht => absurd ht List.not_mem_nil
  length := rfl
  runs := fun n _ _ hactive => by
    have hnone : (booted db servers issued).world.runs[n]? = none := rfl
    rw [hnone] at hactive
    cases hactive
  triggers := fun _ ht => absurd ht List.not_mem_nil
  rows := by
    intro id status output h
    obtain ⟨m, hm, heq⟩ := Option.map_eq_some_iff.mp h
    cases heq
    refine ⟨fun hblank => hblank m hm, fun hready => Or.inr ⟨rfl, ?_⟩⟩
    rw [← hready]
    exact statusOf?_of_shown h

/-! ## Steps of requests -/

/-- A request that starts no run goes on: by what becomes of the rows. -/
theorem Consistent.set (h : Consistent setup.equipment origin s starts)
    (hquiet : t'.Quiet) (hruns : w.runs = s.world.runs)
    (hblank : ∀ id, s.database.Blank id → w.database.Blank id)
    (hpart : ∀ id part, t'.part? = some (id, part) → w.database.Blank id)
    (hrows : ∀ id status output, w.database.shown? id = some (status, output) →
      Shows setup.equipment origin starts id status output) {issued : List MachineId} :
    Consistent setup.equipment origin ⟨w, s.tasks.set n t', issued⟩ starts where
  quiet := by
    intro t ht
    rcases List.mem_or_eq_of_mem_set ht with ht | rfl
    · exact h.quiet t ht
    · exact hquiet
  length := hruns ▸ h.length
  runs := by
    intro m active start hactive hstart
    obtain ⟨rest, hstands⟩ := h.runs m active start (hruns ▸ hactive) hstart
    exact ⟨rest, { hstands with blank := fun hne hfailed => hblank _ (hstands.blank hne hfailed) }⟩
  triggers := by
    intro t ht id part hact
    rcases List.mem_or_eq_of_mem_set ht with ht | rfl
    · exact hblank id (h.triggers t ht id part hact)
    · exact hpart id part hact
  rows := hrows

theorem shows_of_provisioning {equipment : Equipment} {output : String} :
    Shows equipment origin starts id MachineStatus.provisioning.word output := by
  constructor
  · intro _ h
    cases MachineStatus.word_injective (a := .provisioning) (b := .failed) h
  · intro h
    cases MachineStatus.word_injective (a := .provisioning) (b := .ready) h

theorem shows_of_failed {equipment : Equipment} :
    Shows equipment origin starts id MachineStatus.failed.word "" := by
  refine ⟨fun _ _ => rfl, fun h => ?_⟩
  cases MachineStatus.word_injective (a := .failed) (b := .ready) h

section OneMachine

variable {db : Database}

/-- Only the row of one machine has changed. -/
theorem Consistent.rows_at (h : Consistent setup.equipment origin s starts)
    (hothers : ∀ other, other ≠ id → AgreesOn other s.database db)
    (hself : ∀ status output, db.shown? id = some (status, output) →
      Shows setup.equipment origin starts id status output) :
    ∀ other status output, db.shown? other = some (status, output) →
      Shows setup.equipment origin starts other status output := by
  intro other status output hshown
  by_cases hid : other = id
  · subst hid
    exact hself status output hshown
  · rw [(hothers other hid).shown?_eq] at hshown
    exact h.rows other status output hshown

theorem blank_at {db' : Database} (hothers : ∀ other, other ≠ id → AgreesOn other db db')
    (hself : db'.Blank id) : ∀ other, db.Blank other → db'.Blank other := by
  intro other hblank
  by_cases hid : other = id
  · subst hid
    exact hself
  · exact hblank.of_agrees (hothers other hid)

/-- The row of one machine shows it as being provisioned, with nothing extracted. -/
theorem Consistent.set_renewed (h : Consistent setup.equipment origin s starts)
    (hquiet : t'.Quiet) (hruns : w.runs = s.world.runs)
    (hothers : ∀ other, other ≠ id → AgreesOn other s.database w.database)
    (hself : w.database.shown? id = some (MachineStatus.provisioning.word, ""))
    {part : Part} (hpart : t'.part? = some (id, part)) {issued : List MachineId} :
    Consistent setup.equipment origin ⟨w, s.tasks.set n t', issued⟩ starts := by
  refine h.set hquiet hruns (blank_at hothers (blank_of_shown hself)) ?_
    (h.rows_at hothers fun status output hshown => ?_)
  · intro other part' hother
    rw [hpart] at hother
    cases hother
    exact blank_of_shown hself
  · rw [hself] at hshown
    cases hshown
    exact shows_of_provisioning

end OneMachine

/-- **A request that starts no run keeps the rows consistent.** -/
theorem Consistent.stroke (h : Consistent setup.equipment origin s starts)
    (hn : s.tasks[n]? = some t) (hstarts : t.starts = false) (hquiet : t'.Quiet) {o : Outside}
    (hstroke : t.Stroke o s.world t' w) {issued : List MachineId} :
    Consistent setup.equipment origin ⟨w, s.tasks.set n t', issued⟩ starts := by
  have ht : t ∈ s.tasks := List.mem_of_getElem? hn
  cases hstroke with
  | rests hpart _ _ hdatabase hruns =>
    refine h.set hquiet hruns (fun id hblank => hdatabase ▸ hblank) ?_ (hdatabase ▸ h.rows)
    intro id part hact
    rw [hdatabase]
    rcases hpart with hpart | hpart
    · exact h.triggers t ht id part (hpart ▸ hact)
    · rw [hpart] at hact
      cases hact
  | wrote id part call hpart _ hcall _ hpart' hcleared _ hdatabase hruns =>
    obtain ⟨houtput, hstatus⟩ := (h.quiet t ht).write hcall
    have hkept : ∀ other, s.database.Blank other → w.database.Blank other := fun other hblank =>
      hdatabase ▸ hblank.perform fun _ => houtput
    have hblank : s.database.Blank id := h.triggers t ht id part hpart
    refine h.set hquiet hruns hkept ?_ ?_
    · intro other part' hact
      refine hkept other ?_
      by_cases hclear : call = .clearLog
      · rw [hcleared hclear] at hact
        cases hact
        exact hblank
      · rcases hpart' hclear with hsame | hnone
        · exact h.triggers t ht other part' (hsame ▸ hact)
        · rw [hnone] at hact
          cases hact
    · rw [hdatabase]
      rcases hstatus with hstatus | rfl
      · intro other status output hshown
        rw [shown?_perform_of_neither hstatus houtput] at hshown
        exact h.rows other status output hshown
      · refine h.rows_at (fun other hid => AgreesOn.perform _ hid _) fun status output hshown => ?_
        rw [shown?_perform] at hshown
        obtain ⟨⟨status', output'⟩, hold, heq⟩ := Option.map_eq_some_iff.mp hshown
        cases heq
        rw [hblank status' output hold]
        exact shows_of_failed
  | recorded new row _ hpart' _ _ hinsert hruns =>
    exact h.set_renewed hquiet hruns (fun other hid => AgreesOn.insert hinsert hid)
      (shown?_insert hinsert) hpart'
  | restarted id row _ hpart' _ _ hrow hdatabase hruns =>
    refine h.set_renewed hquiet hruns ?_ (hdatabase ▸ shown?_beginReprovision hrow) hpart'
    intro other hid
    rw [hdatabase]
    exact AgreesOn.beginReprovision s.database hid
  | started run script _ _ _ hstarts' _ =>
    rw [hstarts] at hstarts'
    cases hstarts'
  | erased id _ hpart' _ _ hdatabase hruns =>
    have hothers : ∀ other, other ≠ id → AgreesOn other s.database w.database := fun other hid =>
      hdatabase ▸ AgreesOn.erase s.database hid
    have hgone : w.database.shown? id = none := hdatabase ▸ shown?_erase_self s.database id
    refine h.set hquiet hruns (blank_at hothers ?_) ?_ (h.rows_at hothers ?_)
    · intro status output hshown
      rw [hgone] at hshown
      cases hshown
    · intro other part hact
      rw [hpart'] at hact
      cases hact
    · intro status output hshown
      rw [hgone] at hshown
      cases hshown

/-- Where somebody acts for a machine, its row shows it as being provisioned. -/
theorem Exclusive.status_of_acts (hs : s.Exclusive) (hacts : 0 < s.triggers id + s.openRuns id)
    {status : String} (h : s.database.statusOf? id = some status) :
    status = MachineStatus.provisioning.word := by
  rcases (hs.sound id).reserved hacts with hnone | hprovisioning
  · exact nomatch h.symm.trans hnone
  · exact Option.some.inj (h.symm.trans hprovisioning)

/-- **A request that starts a run keeps the rows consistent.** -/
theorem Consistent.begin (h : Consistent setup.equipment origin s starts) (hs : s.Exclusive)
    {row : Machine} {run : Run} (hn : s.tasks[n]? = some (.starting row run)) (c : Circumstances)
    {issued : List MachineId} :
    Consistent setup.equipment origin
      ⟨s.world.start run (run.script setup.equipment c), s.tasks.set n (.answered (.accepted row)),
        issued⟩ (starts ++ [(run, c)]) := by
  have hmem := List.mem_of_getElem? hn
  have hid : run.machine = row.id := hs.orderly.tasks _ hmem
  have hblank : s.database.Blank run.machine := hid ▸ h.triggers _ hmem row.id .writing rfl
  have htrigger : 0 < s.triggers run.machine := hid ▸ triggers_pos hn rfl
  have honce : s.recordings run.machine + s.triggers run.machine + s.openRuns run.machine ≤ 1 :=
    (hs.sound run.machine).once
  -- nobody else acts for the machine, so that no run of it has still to write
  have hover : ∀ (m : Nat) active rest, s.world.runs[m]? = some active →
      active.script.Makes rest → active.run.machine = run.machine → rest = [] := by
    intro m active rest hactive hmakes hsame
    rcases hs.orderly.runs active (List.mem_of_getElem? hactive) with hrunning | hsilent
    · have hopen := openRuns_pos hactive hrunning.awaitsStatus_eq
      rw [hsame] at hopen
      omega
    · exact hsilent.makes_eq hmakes
  refine ⟨?_, ?_, ?_, ?_, ?_⟩
  · intro t ht
    rcases List.mem_or_eq_of_mem_set ht with ht | rfl
    · exact h.quiet t ht
    · trivial
  · show (s.world.runs ++ [_]).length = (starts ++ [(run, c)]).length
    rw [List.length_append, List.length_append, h.length]
    rfl
  · intro m active start hactive hstart
    rcases getElem?_concat_cases h.length hactive hstart with ⟨hactive, hstart⟩ | ⟨rfl, rfl⟩
    · obtain ⟨rest, hstands⟩ := h.runs m active start hactive hstart
      refine ⟨rest, { hstands with latest := fun hne => ?_ }⟩
      rw [Starts.latest?_concat, if_neg]
      · exact hstands.latest hne
      · exact fun hsame => hne (hover m active rest hactive hstands.makes hsame.symm)
    · refine ⟨run.writes setup.equipment c, rfl, run.makes_script setup.equipment c,
        List.suffix_rfl, fun _ => ?_, fun _ _ => hblank⟩
      rw [Starts.latest?_concat, if_pos rfl]
  · intro t ht id part hact
    rcases List.mem_or_eq_of_mem_set ht with ht | rfl
    · exact h.triggers t ht id part hact
    · cases hact
  · intro id status output hshown
    have hrow := h.rows id status output hshown
    by_cases hsame : run.machine = id
    · subst hsame
      obtain rfl := hs.status_of_acts (by omega) (statusOf?_of_shown hshown)
      exact shows_of_provisioning
    · refine ⟨hrow.failed, ?_⟩
      rw [Starts.latest?_concat, if_neg hsame]
      exact hrow.ready

/-! ## Steps of runs -/

/-- A run goes on: by what is left of it then and by what becomes of the rows. -/
theorem Consistent.run_on (h : Consistent setup.equipment origin s starts) {active : ActiveRun}
    {start : Run × Circumstances} {script : Script} {rest : List Write} {db : Database} {hub : Hub}
    (hstart : starts[n]? = some start)
    (hstands : Stands setup.equipment db starts { active with script } start rest)
    (hblank : ∀ id start, starts.latest? id = some start →
      start.1.status setup.equipment start.2 = .failed → s.database.Blank id → db.Blank id)
    (htriggers : ∀ t ∈ s.tasks, ∀ id part, t.part? = some (id, part) → db.Blank id)
    (hrows : ∀ id status output, db.shown? id = some (status, output) →
      Shows setup.equipment origin starts id status output) :
    Consistent setup.equipment origin { s with
      world := { s.world with
        database := db, hub, runs := s.world.runs.set n { active with script } } } starts where
  quiet := h.quiet
  length := by
    rw [List.length_set]
    exact h.length
  runs := by
    intro m active' start' hactive' hstart'
    rcases getElem?_set_cases hactive' with ⟨rfl, rfl⟩ | ⟨-, hactive'⟩
    · rw [hstart] at hstart'
      cases hstart'
      exact ⟨rest, hstands⟩
    · obtain ⟨rest', hstands'⟩ := h.runs m active' start' hactive' hstart'
      exact ⟨rest', { hstands' with
        blank := fun hne hfailed =>
          hblank _ start' (hstands'.latest hne) hfailed (hstands'.blank hne hfailed) }⟩
  triggers := htriggers
  rows := hrows

section Written

variable {active : ActiveRun} {start : Run × Circumstances} {call : Write} {next : Bool → Script}
  {rest : List Write} {hub : Hub} {succeeded : Bool}

/-- A run writes its status. -/
theorem Consistent.conclude (h : Consistent setup.equipment origin s starts)
    (hstart : starts[n]? = some start)
    (hstands : Stands setup.equipment s.database starts active start [call])
    (hcall : call = .setStatus (start.1.status setup.equipment start.2))
    (hnext : (next succeeded).Makes []) :
    Consistent setup.equipment origin { s with
      world := { s.world with
        database := (s.database.perform active.run.machine call).2
        hub
        runs := s.world.runs.set n { active with script := next succeeded } } } starts := by
  subst hcall
  have hne {w : Write} : [w] ≠ [] := List.cons_ne_nil _ _
  have hkept : ∀ id, s.database.Blank id → (s.database.perform active.run.machine
      (.setStatus (start.1.status setup.equipment start.2))).2.Blank id :=
    fun id hblank => hblank.perform fun _ => rfl
  refine h.run_on hstart ⟨hstands.same, hnext, List.nil_suffix, (absurd rfl ·), (absurd rfl ·)⟩
    (fun id _ _ _ => hkept id) (fun t ht id part hact => hkept id (h.triggers t ht id part hact)) ?_
  refine h.rows_at (fun other hid => AgreesOn.perform _ hid _) fun status output hshown => ?_
  rw [shown?_perform] at hshown
  obtain ⟨⟨status', output'⟩, hold, heq⟩ := Option.map_eq_some_iff.mp hshown
  cases heq
  exact ⟨fun _ hword => hstands.blank hne (MachineStatus.word_injective hword) _ _ hold,
    fun hword => Or.inl ⟨start, hstands.latest hne, MachineStatus.word_injective hword⟩⟩

/-- A run makes a note before its status. -/
theorem Consistent.note (h : Consistent setup.equipment origin s starts) (hs : s.Exclusive)
    (hopen : 0 < s.openRuns active.run.machine) (hstart : starts[n]? = some start)
    (hstands : Stands setup.equipment s.database starts active start (call :: rest))
    (hprogress : call.isProgress = true)
    (houtput : start.1.status setup.equipment start.2 = .failed → call.notesOutput = false)
    (hnext : (next succeeded).Makes rest) :
    Consistent setup.equipment origin { s with
      world := { s.world with
        database := (s.database.perform active.run.machine call).2
        hub
        runs := s.world.runs.set n { active with script := next succeeded } } } starts := by
  have hlatest := hstands.latest (List.cons_ne_nil _ _)
  have hkept : ∀ id, (id = active.run.machine → start.1.status setup.equipment start.2 = .failed) →
      s.database.Blank id → (s.database.perform active.run.machine call).2.Blank id :=
    fun id hid hblank => hblank.perform fun hsame => houtput (hid hsame)
  refine h.run_on hstart ⟨hstands.same, hnext, (List.suffix_cons call rest).trans hstands.suffix,
    fun _ => hlatest, fun _ hfailed =>
      hkept _ (fun _ => hfailed) (hstands.blank (List.cons_ne_nil _ _) hfailed)⟩ ?_ ?_ ?_
  · -- another run of the machine that has still to write would be the latest one as well
    rintro id start' hlatest' hfailed hblank
    refine hkept id ?_ hblank
    rintro rfl
    rw [hlatest] at hlatest'
    cases hlatest'
    exact hfailed
  · -- no request is about to start a run of this machine
    intro t ht id part hact
    refine hkept id ?_ (h.triggers t ht id part hact)
    rintro rfl
    obtain ⟨m, hm⟩ := List.getElem?_of_mem ht
    have htrigger := triggers_pos hm (Task.role_of_part hact)
    have honce : s.recordings active.run.machine + s.triggers active.run.machine +
      s.openRuns active.run.machine ≤ 1 := (hs.sound active.run.machine).once
    omega
  · refine h.rows_at (fun other hid => AgreesOn.perform _ hid _) fun status output hshown => ?_
    have hstatus := statusOf?_of_shown hshown
    rw [statusOf?_perform _ _ (Write.setsStatus_of_isProgress hprogress)] at hstatus
    obtain rfl := hs.status_of_acts (by omega) hstatus
    exact shows_of_provisioning

end Written

/-- **A step of a run keeps the rows consistent.** -/
theorem Consistent.run (h : Consistent setup.equipment origin s starts) (hs : s.Exclusive) (n : Nat)
    (fault : Option DatabaseFailure) :
    Consistent setup.equipment origin { s with world := s.world.runStep n fault } starts := by
  have hstep := World.runStep_spec s.world n fault
  generalize s.world.runStep n fault = w at hstep
  have hfind : ∀ {active}, s.world.runs[n]? = some active →
      ∃ start rest, starts[n]? = some start ∧
        Stands setup.equipment s.database starts active start rest := by
    intro active hactive
    obtain ⟨hlt, -⟩ := List.getElem?_eq_some_iff.mp hactive
    have hstart := List.getElem?_eq_getElem (h.length ▸ hlt)
    obtain ⟨rest, hstands⟩ := h.runs n active _ hactive hstart
    exact ⟨_, rest, hstart, hstands⟩
  cases hstep with
  | idle => exact h
  | notified hn hscript =>
    obtain ⟨start, rest, hstart, hstands⟩ := hfind hn
    have hmakes := hstands.makes
    rw [hscript] at hmakes
    cases hmakes with
    | notify hnext =>
      exact h.run_on hstart { hstands with makes := hnext } (fun _ _ _ _ hblank => hblank)
        h.triggers h.rows
  | @failed active call next hn hscript _ =>
    obtain ⟨start, rest, hstart, hstands⟩ := hfind hn
    have hmakes := hstands.makes
    rw [hscript] at hmakes
    cases hmakes with
    | @write _ _ rest hnext =>
      have hne : call :: rest ≠ [] := List.cons_ne_nil _ _
      refine h.run_on hstart ⟨hstands.same, hnext false, ?_, fun _ => hstands.latest hne,
        fun _ => hstands.blank hne⟩ (fun _ _ _ _ hblank => hblank) h.triggers h.rows
      exact (List.suffix_cons call rest).trans hstands.suffix
  | @written active call next succeeded hn hscript _ =>
    obtain ⟨start, rest, hstart, hstands⟩ := hfind hn
    have hopen : 0 < s.openRuns active.run.machine := by
      refine openRuns_pos hn ?_
      rw [hscript]
      exact (hs.orderly.running hn hscript).awaitsStatus_eq
    have hmakes := hstands.makes
    rw [hscript] at hmakes
    cases hmakes with
    | @write _ _ rest hnext =>
      rcases Run.cases_of_suffix hstands.suffix with ⟨rfl, hcall⟩ | ⟨hprogress, houtput⟩
      · exact h.conclude hstart hstands hcall (hnext succeeded)
      · exact h.note hs hopen hstart hstands hprogress houtput (hnext succeeded)

/-! ## Histories -/

/-- **A step of a request keeps the rows consistent.** -/
theorem Consistent.step (h : Consistent setup.equipment origin s starts) (hs : s.Exclusive)
    (hn : s.tasks[n]? = some t) (o : Outside) :
    Consistent setup.equipment origin (s.next setup (.step n o))
      (starts ++ (s.start? (.step n o)).toList) := by
  have hmem := List.mem_of_getElem? hn
  have hquiet : (t.step setup o s.world).1.Quiet := (h.quiet t hmem).step
  have hstroke := Task.stroke_step (hs.orderly.tasks t hmem) setup o s.world
  simp only [start?, Service.next, hn]
  cases t with
  | starting row run => exact h.begin hs hn o.run
  | _ =>
    rw [Option.toList_none, List.append_nil]
    exact h.stroke hn rfl hquiet hstroke

/-- **Every event keeps the rows consistent.** -/
theorem Consistent.next (h : Consistent setup.equipment origin s starts) (hs : s.Exclusive)
    (e : Event) :
    Consistent setup.equipment origin (s.next setup e) (starts ++ (s.start? e).toList) := by
  have hnone : starts ++ (none : Option (Run × Circumstances)).toList = starts := List.append_nil _
  cases e with
  | request r name =>
    show Consistent _ _ _ (starts ++ (none : Option (Run × Circumstances)).toList)
    rw [hnone, Service.next]
    cases hstart : Start.ofRequest r name with
    | response _ => exact h
    | task t =>
      have hinitial := Start.initial_ofRequest hstart
      refine { h with quiet := ?_, triggers := ?_ }
      · intro t' ht'
        rcases List.mem_append.mp ht' with ht' | ht'
        · exact h.quiet t' ht'
        · rw [List.mem_singleton.mp ht']
          exact hinitial.quiet
      · intro t' ht' id part hact
        rcases List.mem_append.mp ht' with ht' | ht'
        · exact h.triggers t' ht' id part hact
        · rw [List.mem_singleton.mp ht'] at hact
          cases hinitial <;> cases hact
  | step n o =>
    cases hn : s.tasks[n]? with
    | none =>
      simp only [start?, Service.next, hn, hnone]
      exact h
    | some t => exact h.step hs hn o
  | drop n =>
    show Consistent _ _ _ (starts ++ (none : Option (Run × Circumstances)).toList)
    rw [hnone]
    exact { h with
      quiet := fun t ht => h.quiet t (List.mem_of_mem_eraseIdx ht)
      triggers := fun t ht => h.triggers t (List.mem_of_mem_eraseIdx ht) }
  | run n fault =>
    show Consistent _ _ _ (starts ++ (none : Option (Run × Circumstances)).toList)
    rw [hnone]
    exact h.run hs n fault

/-- **Every history keeps the rows consistent.** -/
theorem Consistent.play (h : Consistent setup.equipment origin s starts) (hs : s.Exclusive)
    {events : List Event} (hfresh : AllFresh setup s events) :
    Consistent setup.equipment origin (s.play setup events)
      (starts ++ Service.starts setup s events) := by
  induction events generalizing s starts with
  | nil =>
    rw [Service.starts, List.append_nil]
    exact h
  | cons e events ih =>
    rw [play_cons, Service.starts, ← List.append_assoc]
    exact ih (h.next hs e) (hs.next hfresh.1) hfresh.2

/--
**A failed machine shows nothing extracted, and a ready one has a latest run that was a success.**
The provider never hands out an id twice. In whatever order requests and runs go on, whichever
statements fail and whichever requests are dropped:

* a stored machine whose status is `failed` shows nothing extracted, unless it was stored otherwise
  when the service started. The recovery marks machines as failed and keeps what was extracted, so
  this is a condition on the tables as it leaves them, for this one machine;
* for a stored machine whose status is `ready`, the run that was started last for it had reached the
  machine, and the tool had exited with success. If no run of it was started since the service
  started, it was ready then.
-/
theorem rows_consistent {setup : Setup} {db : Database} {servers issued : List MachineId}
    (hissued : ∀ m ∈ db.machines, m.id ∈ issued) {events : List Event}
    (hfresh : AllFresh setup (booted db servers issued) events) {id : MachineId} {m : Machine}
    (hm : ((booted db servers issued).play setup events).database.find? id = some m) :
    (BlankIfFailed db id → m.status = MachineStatus.failed.word → m.extractedOutput = "") ∧
      (m.status = MachineStatus.ready.word →
        match (Service.starts setup (booted db servers issued) events).latest? id with
        | some (run, c) =>
          run.Reaches setup.equipment c ∧ ∃ e, c.tool.Succeeds setup.equipment.tool run.inputs e
        | none => db.statusOf? id = some MachineStatus.ready.word) := by
  have hconsistent : Consistent setup.equipment db ((booted db servers issued).play setup events)
      ([] ++ Service.starts setup (booted db servers issued) events) :=
    consistent_booted.play (exclusive_booted hissued servers) hfresh
  rw [List.nil_append] at hconsistent
  have hrow := hconsistent.rows id m.status m.extractedOutput (by rw [shown?, hm]; rfl)
  refine ⟨hrow.failed, fun hready => ?_⟩
  rcases hrow.ready hready with ⟨⟨run, c⟩, hlatest, hstatus⟩ | ⟨hlatest, horigin⟩
  · rw [hlatest]
    exact Run.status_eq_ready_iff.mp hstatus
  · rw [hlatest]
    exact horigin

/-! ## A machine that becomes ready -/

/-- A service with the prober that is used unless another one is set up. -/
def standardSetup : Setup := ⟨.plain, "hetzner", "1.0.0"⟩

/-- Nothing fails, and a run that is started completes. -/
def completing : Outside := { calmOutside with run := .completed }

/-- A machine whose last run was interrupted is provisioned again, up to the end of its run. -/
def completingEvents : List Event :=
  postTo "/api/v1/machines/1/reprovision" :: List.replicate 4 (.step 0 completing) ++
    List.replicate 30 (.run 0 none)

theorem rows_consistent_completingEvents :
    (∀ m ∈ interruptedTables.withoutInterrupted.machines, m.id ∈ [(1 : MachineId)]) ∧
    AllFresh standardSetup (booted interruptedTables.withoutInterrupted [1] [1]) completingEvents ∧
    BlankIfFailed interruptedTables.withoutInterrupted 1 ∧
    ∃ m start,
      ((booted interruptedTables.withoutInterrupted [1] [1]).play standardSetup
        completingEvents).database.find? 1 = some m ∧
      (m.status, m.extractedOutput) = ("ready", "0xabc") ∧
      (Service.starts standardSetup (booted interruptedTables.withoutInterrupted [1] [1])
        completingEvents).latest? 1 = some start ∧
      start.1.Reaches standardSetup.equipment start.2 ∧
      ∃ e, start.2.tool.Succeeds standardSetup.equipment.tool start.1.inputs e := by
  have hissued : ∀ m ∈ interruptedTables.withoutInterrupted.machines,
      m.id ∈ [(1 : MachineId)] := by
    decide +kernel
  have hdb : BlankIfFailed interruptedTables.withoutInterrupted 1 := by
    have hblank : ∀ m ∈ interruptedTables.withoutInterrupted.machines, m.extractedOutput = "" := by
      decide +kernel
    exact fun m hm _ => hblank m (mem_of_find? hm)
  have hfresh : AllFresh standardSetup (booted interruptedTables.withoutInterrupted [1] [1])
      completingEvents := by
    decide +kernel
  have hshown : ((booted interruptedTables.withoutInterrupted [1] [1]).play standardSetup
      completingEvents).database.shown? 1 = some ("ready", "0xabc") := by
    decide +kernel
  have hstarted : ((Service.starts standardSetup
      (booted interruptedTables.withoutInterrupted [1] [1]) completingEvents).latest? 1).isSome =
        true := by
    decide +kernel
  obtain ⟨m, hm, heq⟩ := Option.map_eq_some_iff.mp hshown
  obtain ⟨start, hlatest⟩ := Option.isSome_iff_exists.mp hstarted
  have hready := (rows_consistent hissued hfresh hm).2 (Prod.mk.inj heq).1
  rw [hlatest] at hready
  exact ⟨hissued, hfresh, hdb, m, start, hm, heq, hlatest, hready⟩

end Service

end Api

end Provisioner
