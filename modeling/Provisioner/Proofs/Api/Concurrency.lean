import Provisioner.Proofs.Api.Ledger
import Provisioner.Proofs.Api.Step

/-!
# Requests and runs side by side

The service carries out any number of requests and runs at once. What happens next is an *event*: a
request arrives, a request or a run makes a step, or a request is dropped in the middle because it
takes too long.

Each event changes the ledger of a machine in one of the ways of `Ledger.Change`
(`Service.change_next`), provided that the provider never hands out an id twice.
-/

namespace Provisioner

/-- Counting in a list of which one member is replaced. -/
theorem countP_set_add {α : Type} {l : List α} {n : Nat} {a : α} (h : l[n]? = some a) (b : α)
    (p : α → Bool) : (l.set n b).countP p + (p a).toNat = l.countP p + (p b).toNat := by
  obtain ⟨hn, ha⟩ := List.getElem?_eq_some_iff.mp h
  rw [List.countP_set hn, ha]
  cases hp : p a with
  | false => cases p b <;> simp
  | true =>
    have hpos : 0 < l.countP p := by
      refine List.countP_pos_iff.mpr ⟨a, ?_, hp⟩
      rw [← ha]
      exact List.getElem_mem hn
    cases p b <;> simp <;> omega

/-- Counting in a list of which one member is left out. -/
theorem countP_eraseIdx_add {α : Type} {l : List α} {n : Nat} {a : α} (h : l[n]? = some a)
    (p : α → Bool) : (l.eraseIdx n).countP p + (p a).toNat = l.countP p := by
  obtain ⟨hn, ha⟩ := List.getElem?_eq_some_iff.mp h
  have hsplit : l = l.take n ++ a :: l.drop (n + 1) := by
    rw [← ha, ← List.drop_eq_getElem_cons hn, List.take_append_drop]
  have hcount : l.countP p = (l.take n).countP p + (a :: l.drop (n + 1)).countP p := by
    rw [← List.countP_append, ← hsplit]
  rw [List.eraseIdx_eq_take_drop_succ, List.countP_append, hcount, List.countP_cons]
  cases p a with
  | false => simp
  | true =>
    simp
    omega

namespace Api

open Database

/-! ## The service -/

/-- The world with the requests that are being carried out. -/
structure Service where
  world : World
  tasks : List Task
  /-- The ids that the provider has handed out. -/
  issued : List MachineId

/-- What can happen next. -/
inductive Event where
  /-- A request arrives, for which a name is generated in case it needs one. -/
  | request (r : Request) (name : String)
  /-- The n-th request makes a step. -/
  | step (n : Nat) (o : Outside)
  /-- The n-th request is dropped because it takes too long. -/
  | drop (n : Nat)
  /-- The n-th run makes a step, in which a write may fail. -/
  | run (n : Nat) (fault : Option DatabaseFailure)

/-- Whether an event is no failure of the database and no loss of a request. -/
def Event.Calm : Event → Prop
  | .request _ _ => True
  | .step _ o => o.fault = none
  | .drop _ => False
  | .run _ fault => fault = none

instance (e : Event) : Decidable e.Calm :=
  match e with
  | .request _ _ => isTrue trivial
  | .step _ o => inferInstanceAs (Decidable (o.fault = none))
  | .drop _ => isFalse not_false
  | .run _ fault => inferInstanceAs (Decidable (fault = none))

namespace Service

/-- The service after an event. -/
def next (setup : Setup) (s : Service) : Event → Service
  | .request r name =>
    match Start.ofRequest r name with
    | .task t => { s with tasks := s.tasks ++ [t] }
    | .response _ => s
  | .step n o =>
    match s.tasks[n]? with
    | some t =>
      ⟨(t.step setup o s.world).2, s.tasks.set n (t.step setup o s.world).1,
        t.newIds o ++ s.issued⟩
    | none => s
  | .drop n => { s with tasks := s.tasks.eraseIdx n }
  | .run n fault => { s with world := s.world.runStep n fault }

/-- The ids that the provider hands out in a step of the n-th request. -/
def newIds (s : Service) (n : Nat) (o : Outside) : List MachineId :=
  match s.tasks[n]? with
  | some t => t.newIds o
  | none => []

/-- The provider hands out no id in an event that it has handed out before. -/
def Fresh (s : Service) : Event → Prop
  | .step n o => ∀ id ∈ s.newIds n o, id ∉ s.issued
  | _ => True

instance (s : Service) (e : Event) : Decidable (s.Fresh e) :=
  match e with
  | .step n o => List.decidableBAll (fun id => id ∉ s.issued) (s.newIds n o)
  | .request _ _ | .drop _ | .run _ _ => isTrue trivial

/-- How many requests are about to record a machine. -/
def recordings (s : Service) (id : MachineId) : Nat :=
  s.tasks.countP fun t => decide (t.role = .recorder id)

/-- How many requests have recorded or reset a machine and are about to start its run. -/
def triggers (s : Service) (id : MachineId) : Nat :=
  s.tasks.countP fun t => decide (t.role = .trigger id)

/-- How many runs of a machine have not written its status yet. -/
def openRuns (s : Service) (id : MachineId) : Nat :=
  s.world.runs.countP fun active => active.run.machine == id && active.script.awaitsStatus

/-- What is known of a machine and of those who act for it. -/
def ledger (s : Service) (id : MachineId) : Ledger :=
  ⟨s.world.database.statusOf? id, s.recordings id, s.triggers id, s.openRuns id,
    s.issued.contains id⟩

/-- The requests are orderly, and the runs are those of machines. -/
structure Orderly (s : Service) : Prop where
  tasks : ∀ t ∈ s.tasks, t.Orderly
  runs : ∀ active ∈ s.world.runs, active.script.Running ∨ active.script.Silent

variable {s : Service} {n : Nat} {t t' : Task} {w : World} {id : MachineId}

/-- The ledger when a request has gone on: by its roles before and after, the row and the runs. -/
theorem ledger_set {l : Ledger} {issued : List MachineId} (hn : s.tasks[n]? = some t)
    (hstatus : w.database.statusOf? id = l.status)
    (hrecordings : s.recordings id + (decide (t'.role = .recorder id)).toNat =
      l.recordings + (decide (t.role = .recorder id)).toNat)
    (htriggers : s.triggers id + (decide (t'.role = .trigger id)).toNat =
      l.triggers + (decide (t.role = .trigger id)).toNat)
    (hopen : openRuns ⟨w, s.tasks, s.issued⟩ id = l.openRuns)
    (hissued : issued.contains id = l.issued) :
    ledger ⟨w, s.tasks.set n t', issued⟩ id = l := by
  have hrec := countP_set_add hn t' fun t => decide (t.role = .recorder id)
  have htrig := countP_set_add hn t' fun t => decide (t.role = .trigger id)
  have hrecordings' : recordings ⟨w, s.tasks.set n t', issued⟩ id = l.recordings := by
    unfold recordings at hrecordings ⊢
    simp only at hrec ⊢
    omega
  have htriggers' : triggers ⟨w, s.tasks.set n t', issued⟩ id = l.triggers := by
    unfold triggers at htriggers ⊢
    simp only at htrig ⊢
    omega
  unfold ledger
  rw [hstatus, hrecordings', htriggers', hissued]
  show Ledger.mk l.status l.recordings l.triggers (openRuns ⟨w, s.tasks, s.issued⟩ id) l.issued = l
  rw [hopen]

theorem openRuns_eq (h : w.runs = s.world.runs) :
    openRuns ⟨w, s.tasks, s.issued⟩ id = s.openRuns id := by
  unfold openRuns
  rw [h]

theorem recordings_pos (hn : s.tasks[n]? = some t) (hrole : t.role = .recorder id) :
    0 < s.recordings id :=
  List.countP_pos_iff.mpr ⟨t, List.mem_of_getElem? hn, decide_eq_true hrole⟩

theorem triggers_pos (hn : s.tasks[n]? = some t) (hrole : t.role = .trigger id) :
    0 < s.triggers id :=
  List.countP_pos_iff.mpr ⟨t, List.mem_of_getElem? hn, decide_eq_true hrole⟩

/-- The ledger of a machine that a step of a request does not concern. -/
theorem ledger_elsewhere (hn : s.tasks[n]? = some t)
    (hstatus : w.database.statusOf? id = s.world.database.statusOf? id)
    (hrecorder : t'.role = .recorder id ↔ t.role = .recorder id)
    (htrigger : t'.role = .trigger id ↔ t.role = .trigger id)
    (hopen : openRuns ⟨w, s.tasks, s.issued⟩ id = s.openRuns id) {issued : List MachineId}
    (hissued : issued.contains id = s.issued.contains id) :
    ledger ⟨w, s.tasks.set n t', issued⟩ id = s.ledger id := by
  have hrecorder' : decide (t'.role = .recorder id) = decide (t.role = .recorder id) :=
    decide_eq_decide.mpr hrecorder
  have htrigger' : decide (t'.role = .trigger id) = decide (t.role = .trigger id) :=
    decide_eq_decide.mpr htrigger
  refine ledger_set hn hstatus ?_ ?_ hopen hissued
  · rw [hrecorder']
    rfl
  · rw [htrigger']
    rfl

/-- **A step of a request changes the ledger of a machine in one of the ways of `Ledger.Change`.** -/
theorem change_effect {o : Outside} {ids : List MachineId} (hn : s.tasks[n]? = some t)
    (h : Task.Effect o s.world t t' w ids) (hfresh : ∀ id ∈ ids, id ∉ s.issued) {calm : Prop}
    (hcalm : calm → o.fault = none) (id : MachineId) :
    Ledger.Change calm (s.ledger id) (ledger ⟨w, s.tasks.set n t', ids ++ s.issued⟩ id) := by
  -- each effect is on one machine, `other`; the ledger of any other one stays as it is
  cases h with
  | passes hrole hstatus hruns =>
    exact .same (ledger_elsewhere hn (hstatus id) (by rw [hrole]) (by rw [hrole])
      (openRuns_eq hruns) rfl)
  | makes other hrole hrole' hstatus hruns =>
    by_cases hid : other = id
    · subst hid
      have hnew : s.issued.contains other = false := by
        rw [← Bool.not_eq_true, List.contains_iff_mem]
        exact hfresh other (List.mem_singleton.mpr rfl)
      refine .made hnew (ledger_set hn (hstatus other) ?_ ?_ (openRuns_eq hruns) ?_)
      · simp [hrole, hrole', ledger]
      · simp [hrole, hrole', ledger]
      · simp
    · refine .same (ledger_elsewhere hn (hstatus id) ?_ ?_ (openRuns_eq hruns) ?_)
      · simp [hrole, hrole', hid]
      · simp [hrole, hrole']
      · simp [Ne.symm hid]
  | unrecorded other hrole hrole' hworld =>
    subst hworld
    by_cases hid : other = id
    · subst hid
      have hpos := recordings_pos hn hrole
      refine .unrecorded (ledger_set hn rfl ?_ ?_ rfl rfl)
      · simp [hrole, hrole', ledger]
        omega
      · simp [hrole, hrole', ledger]
    · refine .same (ledger_elsewhere hn rfl ?_ ?_ rfl rfl)
      · simp [hrole, hrole', hid]
      · simp [hrole, hrole']
  | recorded other hrole hrole' hstatus hothers hruns =>
    by_cases hid : other = id
    · subst hid
      have hpos := recordings_pos hn hrole
      refine .recorded hpos (ledger_set hn hstatus ?_ ?_ (openRuns_eq hruns) rfl)
      · simp [hrole, hrole', ledger]
        omega
      · simp [hrole, hrole', ledger]
    · refine .same (ledger_elsewhere hn (hothers id (Ne.symm hid)) ?_ ?_ (openRuns_eq hruns) rfl)
      · simp [hrole, hrole', hid]
      · simp [hrole, hrole', hid]
  | restarted other status hrole hrole' hterminal hold hstatus hothers hruns =>
    by_cases hid : other = id
    · subst hid
      refine .restarted hterminal hold (ledger_set hn hstatus ?_ ?_ (openRuns_eq hruns) rfl)
      · simp [hrole, hrole', ledger]
      · simp [hrole, hrole', ledger]
    · refine .same (ledger_elsewhere hn (hothers id (Ne.symm hid)) ?_ ?_ (openRuns_eq hruns) rfl)
      · simp [hrole, hrole']
      · simp [hrole, hrole', hid]
  | started other run script hrole hrole' hrun hscript hworld =>
    subst hworld
    have hopen : openRuns ⟨s.world.start run script, s.tasks, s.issued⟩ id =
        s.openRuns id + (run.machine == id).toNat := by
      unfold openRuns World.start
      rw [List.countP_append, List.countP_singleton, hscript.awaitsStatus_eq, Bool.and_true]
      cases run.machine == id <;> rfl
    by_cases hid : other = id
    · subst hid
      have hpos := triggers_pos hn hrole
      refine .started hpos (ledger_set hn rfl ?_ ?_ ?_ rfl)
      · simp [hrole, hrole', ledger]
      · simp [hrole, hrole', ledger]
        omega
      · rw [hopen, hrun, beq_self_eq_true]
        rfl
    · have hstatus : (s.world.start run script).database.statusOf? id =
          s.world.database.statusOf? id := rfl
      refine .same (ledger_elsewhere hn hstatus ?_ ?_ ?_ rfl)
      · simp [hrole, hrole']
      · simp [hrole, hrole', hid]
      · rw [hopen, hrun, beq_eq_false_iff_ne.mpr hid]
        rfl
  | dropped other hfault hrole hrole' hworld =>
    subst hworld
    by_cases hid : other = id
    · subst hid
      have hpos := triggers_pos hn hrole
      refine .dropped (fun h => hfault (hcalm h)) (ledger_set hn rfl ?_ ?_ rfl rfl)
      · simp [hrole, hrole', ledger]
      · simp [hrole, hrole', ledger]
        omega
    · refine .same (ledger_elsewhere hn rfl ?_ ?_ rfl rfl)
      · simp [hrole, hrole']
      · simp [hrole, hrole', hid]
  | repaired other hrole hrole' hstatus hothers hruns =>
    by_cases hid : other = id
    · subst hid
      have hpos := triggers_pos hn hrole
      refine .repaired hpos (ledger_set hn hstatus ?_ ?_ (openRuns_eq hruns) rfl)
      · simp [hrole, hrole', ledger]
      · simp [hrole, hrole', ledger]
        omega
    · refine .same (ledger_elsewhere hn (hothers id (Ne.symm hid)) ?_ ?_ (openRuns_eq hruns) rfl)
      · simp [hrole, hrole']
      · simp [hrole, hrole', hid]
  | erased other hrole hstatus hothers hruns =>
    by_cases hid : other = id
    · subst hid
      refine .erased (ledger_set hn hstatus ?_ ?_ (openRuns_eq hruns) rfl)
      · simp [hrole, ledger]
      · simp [hrole, ledger]
    · exact .same (ledger_elsewhere hn (hothers id (Ne.symm hid)) (by rw [hrole]) (by rw [hrole])
        (openRuns_eq hruns) rfl)

/-- A request that is dropped is lost, and nothing else changes. -/
theorem change_drop (s : Service) (n : Nat) {calm : Prop} (hcalm : ¬calm) (id : MachineId) :
    Ledger.Change calm (s.ledger id) (ledger { s with tasks := s.tasks.eraseIdx n } id) := by
  cases hn : s.tasks[n]? with
  | none =>
    rw [List.eraseIdx_of_length_le (List.getElem?_eq_none_iff.mp hn)]
    exact .same rfl
  | some t =>
    have hrec := countP_eraseIdx_add hn fun t => decide (t.role = .recorder id)
    have htrig := countP_eraseIdx_add hn fun t => decide (t.role = .trigger id)
    have hledger : ∀ {recordings' triggers' : Nat},
        recordings' = (s.tasks.eraseIdx n).countP (fun t => decide (t.role = .recorder id)) →
        triggers' = (s.tasks.eraseIdx n).countP (fun t => decide (t.role = .trigger id)) →
        ledger { s with tasks := s.tasks.eraseIdx n } id =
          { s.ledger id with recordings := recordings', triggers := triggers' } := by
      rintro _ _ rfl rfl
      rfl
    by_cases hrecorder : t.role = .recorder id
    · rw [hrecorder] at hrec htrig
      simp only [decide_true, Bool.toNat_true] at hrec
      refine .unrecorded (hledger ?_ htrig.symm)
      show s.recordings id - 1 = _
      unfold recordings
      omega
    · by_cases htrigger : t.role = .trigger id
      · rw [htrigger] at hrec htrig
        simp only [decide_true, Bool.toNat_true] at htrig
        refine .dropped hcalm (hledger hrec.symm ?_)
        show s.triggers id - 1 = _
        unfold triggers
        omega
      · simp only [hrecorder, htrigger, decide_false, Bool.toNat_false] at hrec htrig
        exact .same (hledger hrec.symm htrig.symm)

/-! ## Steps of runs -/

/-- The ledger when a run has gone on: by the row and by whether it has still to write its status. -/
theorem ledger_run {l : Ledger} {active : ActiveRun} {script : Script} {db : Database} {hub : Hub}
    (hn : s.world.runs[n]? = some active) (hstatus : db.statusOf? id = l.status)
    (hrecordings : s.recordings id = l.recordings) (htriggers : s.triggers id = l.triggers)
    (hopen : s.openRuns id + (active.run.machine == id && script.awaitsStatus).toNat =
      l.openRuns + (active.run.machine == id && active.script.awaitsStatus).toNat)
    (hissued : s.issued.contains id = l.issued) :
    ledger { s with
      world := { s.world with
        database := db, hub, runs := s.world.runs.set n { active with script } } } id = l := by
  have hcount := countP_set_add hn { active with script } fun active =>
    active.run.machine == id && active.script.awaitsStatus
  have hopen' : openRuns { s with
      world := { s.world with
        database := db, hub, runs := s.world.runs.set n { active with script } } } id =
      l.openRuns := by
    unfold openRuns at hopen ⊢
    simp only at hcount ⊢
    omega
  unfold ledger
  rw [hstatus, hopen', hissued]
  show Ledger.mk l.status (s.recordings id) (s.triggers id) l.openRuns l.issued = l
  rw [hrecordings, htriggers]

/-- A run goes on and has still to write its status, or has had to before. -/
theorem change_run_same {active : ActiveRun} {script : Script} {db : Database} {hub : Hub}
    (hn : s.world.runs[n]? = some active)
    (hstatus : db.statusOf? id = s.world.database.statusOf? id)
    (hscript : script.awaitsStatus = active.script.awaitsStatus) {calm : Prop} :
    Ledger.Change calm (s.ledger id) (ledger { s with
      world := { s.world with
        database := db, hub, runs := s.world.runs.set n { active with script } } } id) := by
  refine .same (ledger_run hn hstatus rfl rfl ?_ rfl)
  rw [hscript]
  rfl

theorem openRuns_pos {active : ActiveRun} (hn : s.world.runs[n]? = some active)
    (hactive : active.script.awaitsStatus = true) : 0 < s.openRuns active.run.machine := by
  refine List.countP_pos_iff.mpr ⟨active, List.mem_of_getElem? hn, ?_⟩
  rw [beq_self_eq_true, hactive]
  rfl

/-- A run that is about to write has still to write its status. -/
theorem Orderly.running (hs : s.Orderly) {active : ActiveRun} {call : Write}
    {next : Bool → Script} (hn : s.world.runs[n]? = some active)
    (hscript : active.script = .write call next) : (Script.write call next).Running := by
  rw [← hscript]
  refine (hs.runs active (List.mem_of_getElem? hn)).resolve_right ?_
  rw [hscript]
  exact Script.Silent.not_write

/-- A run of another machine writes. -/
theorem change_run_elsewhere {active : ActiveRun} {script : Script} {db : Database} {hub : Hub}
    (hn : s.world.runs[n]? = some active) (hid : active.run.machine ≠ id)
    (hstatus : db.statusOf? id = s.world.database.statusOf? id) {calm : Prop} :
    Ledger.Change calm (s.ledger id) (ledger { s with
      world := { s.world with
        database := db, hub, runs := s.world.runs.set n { active with script } } } id) := by
  refine .same (ledger_run hn hstatus rfl rfl ?_ rfl)
  rw [beq_eq_false_iff_ne.mpr hid]
  rfl

/-- **A step of a run changes the ledger of a machine in one of the ways of `Ledger.Change`.** -/
theorem change_run (hs : s.Orderly) {n : Nat} {fault : Option DatabaseFailure} {calm : Prop}
    (hcalm : calm → fault = none) (id : MachineId) :
    Ledger.Change calm (s.ledger id) (ledger { s with world := s.world.runStep n fault } id) := by
  have hstep := World.runStep_spec s.world n fault
  generalize s.world.runStep n fault = w at hstep
  cases hstep with
  | idle => exact .same rfl
  | @notified active next hn hscript =>
    refine change_run_same hn rfl ?_
    rw [hscript]
    rfl
  | @failed active call next hn hscript hfault =>
    have hrunning := hs.running hn hscript
    have hopen : active.script.awaitsStatus = true := by
      rw [hscript]
      exact hrunning.awaitsStatus_eq
    -- when the write of the status fails the run is over and the status stays what it was
    rcases hrunning.write_cases with ⟨-, hnext⟩ | ⟨status, -, -, hnext⟩
    · refine change_run_same hn rfl ?_
      rw [(hnext false).awaitsStatus_eq, hopen]
    · by_cases hid : active.run.machine = id
      · subst hid
        have hpos := openRuns_pos hn hopen
        refine .stopped (fun h => hfault (hcalm h)) (ledger_run hn rfl rfl rfl ?_ rfl)
        rw [(hnext false).awaitsStatus_eq, hopen, beq_self_eq_true]
        show s.openRuns active.run.machine + 0 = s.openRuns active.run.machine - 1 + 1
        omega
      · exact change_run_elsewhere hn hid rfl
  | @written active call next succeeded hn hscript _ =>
    have hrunning := hs.running hn hscript
    have hopen : active.script.awaitsStatus = true := by
      rw [hscript]
      exact hrunning.awaitsStatus_eq
    by_cases hid : active.run.machine = id
    · subst hid
      rcases hrunning.write_cases with ⟨hcall, hnext⟩ | ⟨status, rfl, hterminal, hnext⟩
      · refine change_run_same hn (statusOf?_perform _ _ (Write.setsStatus_of_isProgress hcall) _) ?_
        rw [(hnext succeeded).awaitsStatus_eq, hopen]
      · have hpos := openRuns_pos hn hopen
        refine .concluded hterminal hpos
          (ledger_run hn (statusOf?_setStatus _ _ status) rfl rfl ?_ rfl)
        rw [(hnext succeeded).awaitsStatus_eq, hopen, beq_self_eq_true]
        show s.openRuns active.run.machine + 0 = s.openRuns active.run.machine - 1 + 1
        omega
    · exact change_run_elsewhere hn hid (AgreesOn.perform _ (Ne.symm hid) _).statusOf?_eq

/-! ## Events -/

/-- **Every event changes the ledger of a machine in one of the ways of `Ledger.Change`.** -/
theorem change_next (hs : s.Orderly) (setup : Setup) {e : Event} (he : s.Fresh e) (id : MachineId) :
    Ledger.Change e.Calm (s.ledger id) ((s.next setup e).ledger id) := by
  cases e with
  | request r name =>
    have hidle := Start.idle_ofRequest r name
    simp only [next]
    cases hstart : Start.ofRequest r name with
    | response _ => exact .same rfl
    | task t =>
      rw [hstart] at hidle
      refine .same ?_
      unfold ledger recordings triggers
      simp only [List.countP_append, List.countP_singleton, hidle.1]
      rfl
  | step n o =>
    simp only [next]
    cases hn : s.tasks[n]? with
    | none => exact .same rfl
    | some t =>
      obtain ⟨-, heffect⟩ := Task.step_spec (hs.tasks t (List.mem_of_getElem? hn)) setup o s.world
      have hids : s.newIds n o = t.newIds o := by
        unfold newIds
        rw [hn]
      refine change_effect hn heffect ?_ (fun h => h) id
      rw [← hids]
      exact he
  | drop n => exact change_drop s n (fun h => h) id
  | run n fault => exact change_run hs (fun h => h) id

/-- Requests and runs stay orderly. -/
theorem Orderly.next (hs : s.Orderly) (setup : Setup) (e : Event) : (s.next setup e).Orderly := by
  cases e with
  | request r name =>
    have hidle := Start.idle_ofRequest r name
    simp only [Service.next]
    cases hstart : Start.ofRequest r name with
    | response _ => exact hs
    | task t =>
      rw [hstart] at hidle
      refine ⟨?_, hs.runs⟩
      intro t' ht'
      rcases List.mem_append.mp ht' with ht' | ht'
      · exact hs.tasks t' ht'
      · rw [List.mem_singleton.mp ht']
        exact hidle.2
  | step n o =>
    simp only [Service.next]
    cases hn : s.tasks[n]? with
    | none => exact hs
    | some t =>
      obtain ⟨horderly, heffect⟩ :=
        Task.step_spec (hs.tasks t (List.mem_of_getElem? hn)) setup o s.world
      refine ⟨?_, ?_⟩
      · intro t' ht'
        rcases List.mem_or_eq_of_mem_set ht' with ht' | rfl
        · exact hs.tasks t' ht'
        · exact horderly
      · exact heffect.runs hs.runs fun _ hrunning => Or.inl hrunning
  | drop n => exact ⟨fun t ht => hs.tasks t (List.mem_of_mem_eraseIdx ht), hs.runs⟩
  | run n fault =>
    refine ⟨hs.tasks, ?_⟩
    simp only [Service.next]
    have hset : ∀ {active : ActiveRun} {script : Script}, script.Running ∨ script.Silent →
        ∀ active' ∈ s.world.runs.set n { active with script },
          active'.script.Running ∨ active'.script.Silent := by
      intro active script hscript active' hactive'
      rcases List.mem_or_eq_of_mem_set hactive' with hactive' | rfl
      · exact hs.runs active' hactive'
      · exact hscript
    have hstep := World.runStep_spec s.world n fault
    generalize s.world.runStep n fault = w at hstep ⊢
    cases hstep with
    | idle => exact hs.runs
    | failed hn hscript _ =>
      refine hset ?_
      rcases (hs.running hn hscript).write_cases with ⟨-, hnext⟩ | ⟨_, -, -, hnext⟩
      · exact Or.inl (hnext _)
      · exact Or.inr (hnext _)
    | written hn hscript _ =>
      refine hset ?_
      rcases (hs.running hn hscript).write_cases with ⟨-, hnext⟩ | ⟨_, -, -, hnext⟩
      · exact Or.inl (hnext _)
      · exact Or.inr (hnext _)
    | notified hn hscript =>
      refine hset ?_
      have hrun := hs.runs _ (List.mem_of_getElem? hn)
      rw [hscript] at hrun
      rcases hrun with hrun | hrun
      · cases hrun
        exact Or.inl ‹_›
      · cases hrun
        exact Or.inr ‹_›

end Service

end Api

end Provisioner
