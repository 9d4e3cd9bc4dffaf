import Provisioner.Proofs.Api.Course
import Provisioner.Proofs.Api.Exclusion

/-!
# When a reprovision is not accepted

A reprovision makes up to three statements. The first sets the row back to provisioning, if it shows
a terminal status; the second clears the log; if that fails, the third marks the machine as failed,
so that the caller can try again. No transaction holds them together, and each of them may fail.

`Reprovision.Outcome` says what comes of a reprovision by which of its statements fail. One outcome
leaves the machine stuck: the log is not cleared and the machine is not marked as failed either, so
that its row goes on to show a run that was never started.

What follows the reset of the row is also given as one script, `Run.restart`. The request carries
out its beginning, and the run that it starts the rest (`Reprovision.Restarting.step`,
`Reprovision.carryOut_eq_restart`).
-/

namespace Provisioner.Api

open Database

namespace Task

/-! ## The steps of a reprovision -/

section Steps

variable {setup : Setup} {o : Outside} {w : World} {id : MachineId} {row : Machine}
  {failure : DatabaseFailure}

theorem step_resetting_of_fault (h : o.fault = some failure) :
    (resetting id).step setup o w = (fail (.database failure), w) := by
  simp only [step, statement, h]

theorem step_resetting_of_some (h : o.fault = none)
    (hrow : (w.database.beginReprovision id).1 = some row) :
    (resetting id).step setup o w =
      (.clearing row, { w with database := (w.database.beginReprovision id).2 }) := by
  simp only [step, statement, h, hrow]

theorem step_resetting_of_none (h : o.fault = none)
    (hrow : (w.database.beginReprovision id).1 = none) :
    (resetting id).step setup o w = (.refusing id, w) := by
  simp only [step, statement, h, hrow, beginReprovision_none hrow]

/-- A machine that was not reset is looked up for the reason, and nothing is written. -/
theorem step_refusing (setup : Setup) (o : Outside) (id : MachineId) (w : World) :
    ∃ failure, (refusing id).step setup o w = (fail failure, w) := by
  simp only [step, statement, withMachine]
  cases o.fault with
  | some failure => exact ⟨_, rfl⟩
  | none =>
    cases w.database.find? id with
    | some m => exact ⟨_, rfl⟩
    | none => exact ⟨_, rfl⟩

theorem step_clearing_of_none (h : o.fault = none) :
    (clearing row).step setup o w =
      (.waking row, { w with database := w.database.clearLog row.id }) := by
  simp only [step, World.write, h]
  rfl

theorem step_clearing_of_fault (h : o.fault = some failure) :
    (clearing row).step setup o w =
      (.repairing row.id (.write Write.clearLog.name failure.message), w) := by
  simp only [step, World.write, h]

theorem step_repairing_of_none {cause : StoreFailure} (h : o.fault = none) :
    (repairing id cause).step setup o w =
      (.wakingFailed id cause, { w with database := w.database.setStatus id .failed }) := by
  simp only [step, World.write, h]
  rfl

theorem step_repairing_of_fault {cause : StoreFailure} (h : o.fault = some failure) :
    (repairing id cause).step setup o w = (fail (.database failure), w) := by
  simp only [step, World.write, h]

end Steps

end Task

namespace Reprovision

/-- A reprovision of a machine, carried out to its answer with nothing between its steps. -/
def carryOut (setup : Setup) (outside : Nat → Outside) (id : MachineId) (w : World) :
    Task × World :=
  (Task.resetting id).after setup outside w 4

/-- The world once the row of a machine was reset, or left alone. -/
def reset (w : World) (id : MachineId) : World :=
  { w with database := (w.database.beginReprovision id).2 }

/-- The row is reset. -/
def Resets (outside : Nat → Outside) (id : MachineId) (w : World) : Prop :=
  (outside 0).fault = none ∧ ∃ row, (w.database.beginReprovision id).1 = some row

/-- The row is reset, and then both the log is not cleared and the machine not marked as failed. -/
def Breaks (outside : Nat → Outside) (id : MachineId) (w : World) : Prop :=
  Resets outside id w ∧ (outside 1).fault ≠ none ∧ (outside 2).fault ≠ none

/-- What comes of a reprovision, by which of its statements fail. -/
inductive Outcome (setup : Setup) (outside : Nat → Outside) (id : MachineId) (w : World) :
    Task × World → Prop where
  | declined (failure : Failure) (hreset : ¬Resets outside id w) :
      Outcome setup outside id w (.fail failure, w)
  | accepted (row : Machine) (script : Script) (hreset : Resets outside id w)
      (hcleared : (outside 1).fault = none) :
      Outcome setup outside id w (.answered (.accepted row),
        (World.notify { reset w id with database := (reset w id).database.clearLog id } id).start
          (Task.nextRun row) script)
  | repaired (failure : Failure) (hreset : Resets outside id w)
      (hcleared : (outside 1).fault ≠ none) (hrepaired : (outside 2).fault = none) :
      Outcome setup outside id w (.fail failure,
        World.notify { reset w id with database := (reset w id).database.setStatus id .failed } id)
  | stuck (failure : DatabaseFailure) (hbreaks : Breaks outside id w)
      (hfailure : (outside 2).fault = some failure) :
      Outcome setup outside id w (.fail (.database failure), reset w id)

variable {setup : Setup} {outside : Nat → Outside} {id : MachineId} {w : World}

/-- **What comes of a reprovision.** -/
theorem outcome (setup : Setup) (outside : Nat → Outside) (id : MachineId) (w : World) :
    Outcome setup outside id w (carryOut setup outside id w) := by
  unfold carryOut
  have hstart : (Task.resetting id).after setup outside w 0 = (.resetting id, w) := rfl
  have hfirst := Task.after_succ hstart
  -- statement by statement: each that fails leads to another answer
  cases hfault : (outside 0).fault with
  | some failure =>
    rw [Task.step_resetting_of_fault hfault] at hfirst
    rw [Task.after_of_answered hfirst 3]
    refine .declined _ ?_
    rintro ⟨hnone, -⟩
    rw [hfault] at hnone
    cases hnone
  | none =>
    cases hrow : (w.database.beginReprovision id).1 with
    | none =>
      rw [Task.step_resetting_of_none hfault hrow] at hfirst
      have hsecond := Task.after_succ hfirst
      obtain ⟨failure, hfailure⟩ := Task.step_refusing setup (outside 1) id w
      rw [hfailure] at hsecond
      rw [Task.after_of_answered hsecond 2]
      refine .declined failure ?_
      rintro ⟨-, row, hsome⟩
      rw [hrow] at hsome
      cases hsome
    | some row =>
      have hreset : Resets outside id w := ⟨hfault, row, hrow⟩
      obtain ⟨rfl, -, -⟩ := beginReprovision_spec hrow
      rw [Task.step_resetting_of_some hfault hrow] at hfirst
      have hsecond := Task.after_succ hfirst
      cases hclear : (outside 1).fault with
      | none =>
        rw [Task.step_clearing_of_none hclear] at hsecond
        rw [Task.after_succ (Task.after_succ hsecond)]
        exact .accepted row _ hreset hclear
      | some failure =>
        have hcleared : (outside 1).fault ≠ none := by
          rw [hclear]
          exact nofun
        rw [Task.step_clearing_of_fault hclear] at hsecond
        have hthird := Task.after_succ hsecond
        cases hrepair : (outside 2).fault with
        | none =>
          rw [Task.step_repairing_of_none hrepair] at hthird
          rw [Task.after_succ hthird]
          exact .repaired _ hreset hcleared hrepair
        | some fault =>
          have hrepaired : (outside 2).fault ≠ none := by
            rw [hrepair]
            exact nofun
          rw [Task.step_repairing_of_fault hrepair] at hthird
          rw [Task.after_of_answered hthird 1]
          exact .stuck fault ⟨hreset, hcleared, hrepaired⟩ hrepair

/-! ## The script of a reprovision -/

/--
What is left of a reprovision whose row was reset, beside what is left of the script
`Run.restart`. The request carries out the first part of the script, and the run the rest.
-/
inductive Restarting (equipment : Equipment) (c : Circumstances) (row : Machine) :
    Task → Script → Prop where
  | clearing : Restarting equipment c row (.clearing row) ((Task.nextRun row).restart equipment c)
  | waking : Restarting equipment c row (.waking row)
      (.notify ((Task.nextRun row).script equipment c))
  | starting : Restarting equipment c row (.starting row (Task.nextRun row))
      ((Task.nextRun row).script equipment c)
  | repairing (failure : StoreFailure) :
      Restarting equipment c row (.repairing row.id failure) .done

namespace Restarting

variable {o : Outside} {c : Circumstances} {row : Machine} {run : Run} {t : Task} {script : Script}

/-- Until a run is started or the machine is repaired, each step is a step of the script. -/
theorem step (h : Restarting setup.equipment c row t script)
    (ht : t = .clearing row ∨ t = .waking row) (o : Outside) (w : World) :
    Restarting setup.equipment c row (t.step setup o w).1 (w.scriptStep row.id o.fault script).1 ∧
      (t.step setup o w).2 = (w.scriptStep row.id o.fault script).2 := by
  cases h with
  | clearing =>
    simp only [Run.restart, World.scriptStep, World.write]
    cases hfault : o.fault with
    | none =>
      rw [Task.step_clearing_of_none hfault]
      exact ⟨.waking, rfl⟩
    | some failure =>
      rw [Task.step_clearing_of_fault hfault]
      exact ⟨.repairing _, rfl⟩
  | waking => exact ⟨.starting, rfl⟩
  | starting | repairing => rcases ht with ht | ht <;> cases ht

/-- The run that is started has the rest of the script to do. -/
theorem start (h : Restarting setup.equipment o.run row (.starting row run) script) (w : World) :
    (Task.starting row run).step setup o w =
      (.answered (.accepted row), w.start run script) := by
  cases h
  rfl

end Restarting

/--
**A reprovision carries out `Run.restart`.** Once the row was reset, the request clears the log and
wakes the viewers as the first two steps of the script do, and the run that it starts has the rest
of the script to do. If the log is not cleared, nothing is left of the script and no run is started.
-/
theorem carryOut_eq_restart {row : Machine} (hfirst : (outside 0).fault = none)
    (hrow : (w.database.beginReprovision id).1 = some row) :
    let script := (Task.nextRun row).restart setup.equipment (outside 3).run
    let cleared := (reset w id).scriptStep id (outside 1).fault script
    let woken := cleared.2.scriptStep id (outside 2).fault cleared.1
    ((outside 1).fault = none →
      carryOut setup outside id w =
        (.answered (.accepted row), woken.2.start (Task.nextRun row) woken.1)) ∧
    ((outside 1).fault ≠ none →
      cleared = (.done, reset w id) ∧ (carryOut setup outside id w).2.runs = w.runs) := by
  obtain ⟨rfl, -, -⟩ := beginReprovision_spec hrow
  intro script cleared woken
  constructor
  · intro hfault
    have hstart : (Task.resetting row.id).after setup outside w 0 = (.resetting row.id, w) := rfl
    have hreset : (Task.resetting row.id).after setup outside w 1 = (.clearing row, reset w row.id) :=
      (Task.after_succ hstart).trans (Task.step_resetting_of_some hfirst hrow)
    -- the request and the script go on side by side
    have hclearing : Restarting setup.equipment (outside 3).run row (.clearing row) script :=
      .clearing
    obtain ⟨hwaking, hcleared⟩ := hclearing.step (Or.inl rfl) (outside 1) (reset w row.id)
    have hnext : ((Task.clearing row).step setup (outside 1) (reset w row.id)).1 = .waking row := by
      rw [Task.step_clearing_of_none hfault]
    have hsecond : (Task.resetting row.id).after setup outside w 2 = (.waking row, cleared.2) :=
      (Task.after_succ hreset).trans (Prod.ext hnext hcleared)
    rw [hnext] at hwaking
    obtain ⟨hstarting, hwoken⟩ := hwaking.step (Or.inr rfl) (outside 2) cleared.2
    have hthird : (Task.resetting row.id).after setup outside w 3 =
        (.starting row (Task.nextRun row), woken.2) :=
      (Task.after_succ hsecond).trans (Prod.ext rfl hwoken)
    exact (Task.after_succ hthird).trans (hstarting.start woken.2)
  · intro hfault
    refine ⟨?_, ?_⟩
    · cases hfailure : (outside 1).fault with
      | none => exact absurd hfailure hfault
      | some failure =>
        simp only [cleared, script, Run.restart, World.scriptStep, World.write, hfailure]
        rfl
    · have houtcome := outcome setup outside row.id w
      generalize carryOut setup outside row.id w = r at houtcome ⊢
      cases houtcome with
      | accepted _ _ _ hcleared => exact absurd hcleared hfault
      | declined | repaired | stuck => rfl

/-! ## What a reprovision leaves behind -/

/-- The machine is left failed with its log as it was, and can be provisioned again. -/
structure Repaired (setup : Setup) (id : MachineId) (w w' : World) : Prop where
  status : w'.database.statusOf? id = some MachineStatus.failed.word
  entries : w'.database.entriesOf id = w.database.entriesOf id
  woken : w'.hub = w.hub.notify id
  retried : ∀ outside, (∀ n, (outside n).fault = none) →
    ∃ row, (carryOut setup outside id w').1 = .answered (.accepted row)

/-- The row shows a run that was not started, and no later reprovision is accepted. -/
structure Stuck (setup : Setup) (id : MachineId) (w w' : World) : Prop where
  status : w'.database.statusOf? id = some MachineStatus.provisioning.word
  asleep : w'.hub = w.hub
  refused : ∀ outside, ∃ failure, carryOut setup outside id w' = (.fail failure, w')

theorem statusOf?_reset (h : Resets outside id w) :
    (reset w id).database.statusOf? id = some MachineStatus.provisioning.word := by
  obtain ⟨-, row, hrow⟩ := h
  exact (beginReprovision_spec hrow).2.2

/-- A reprovision of a machine in a terminal status is accepted if no statement fails. -/
theorem accepted_of_terminal {status : MachineStatus} (hterminal : status.isTerminal = true)
    (hstatus : w.database.statusOf? id = some status.word) (hcalm : ∀ n, (outside n).fault = none) :
    ∃ row, (carryOut setup outside id w).1 = .answered (.accepted row) := by
  have hresets : Resets outside id w := ⟨hcalm 0, beginReprovision_of_terminal hterminal hstatus⟩
  have houtcome := outcome setup outside id w
  generalize carryOut setup outside id w = r at houtcome ⊢
  cases houtcome with
  | declined failure hreset => exact absurd hresets hreset
  | accepted row => exact ⟨row, rfl⟩
  | repaired failure _ hcleared => exact absurd (hcalm 1) hcleared
  | stuck failure hbreaks => exact absurd (hcalm 1) hbreaks.2.1

/-- A reprovision of a machine that is being provisioned is refused, whichever statements fail. -/
theorem refused_of_provisioning
    (hstatus : w.database.statusOf? id = some MachineStatus.provisioning.word) :
    ∃ failure, carryOut setup outside id w = (.fail failure, w) := by
  have hresets : ¬Resets outside id w := by
    rintro ⟨-, row, hrow⟩
    rw [beginReprovision_of_provisioning hstatus] at hrow
    cases hrow
  have houtcome := outcome setup outside id w
  generalize carryOut setup outside id w = r at houtcome ⊢
  cases houtcome with
  | declined failure => exact ⟨failure, rfl⟩
  | accepted _ _ hreset => exact absurd hreset hresets
  | repaired _ hreset => exact absurd hreset hresets
  | stuck _ hbreaks => exact absurd hbreaks.1 hresets

theorem repaired_setStatus (h : Resets outside id w) :
    Repaired setup id w
      (World.notify { reset w id with database := (reset w id).database.setStatus id .failed } id) := by
  have hstatus : ((reset w id).database.setStatus id .failed).statusOf? id =
      some MachineStatus.failed.word := by
    rw [statusOf?_setStatus, statusOf?_reset h]
    rfl
  have hterminal : MachineStatus.failed.isTerminal = true := rfl
  exact ⟨hstatus, entriesOf_beginReprovision w.database id, rfl,
    fun _ hcalm => accepted_of_terminal hterminal hstatus hcalm⟩

theorem stuck_reset (h : Resets outside id w) : Stuck setup id w (reset w id) :=
  ⟨statusOf?_reset h, rfl, fun _ => refused_of_provisioning (statusOf?_reset h)⟩

/-- A machine that is stuck was neither left alone nor repaired. -/
theorem not_settled_reset (h : Resets outside id w) :
    ¬(AgreesOn id w.database (reset w id).database ∨ Repaired setup id w (reset w id)) := by
  have hstatus := statusOf?_reset h
  rintro (hagrees | hrepaired)
  · obtain ⟨-, row, hrow⟩ := h
    rw [hagrees.statusOf?_eq] at hstatus
    rw [beginReprovision_of_provisioning hstatus] at hrow
    cases hrow
  · rw [hrepaired.status] at hstatus
    exact nomatch MachineStatus.word_injective (Option.some.inj hstatus)

/--
**What a reprovision leaves behind.** It is accepted, and then starts one run, if the row is reset
and the log is cleared. Otherwise no run is started. Then the row and the log are as before, or the
machine is left failed, its viewers are woken and a later reprovision is accepted, just unless the
row is reset and both statements after that fail. In that one case the row is left as if a run were
under way, and every later reprovision is refused.
-/
theorem settled_iff (setup : Setup) (outside : Nat → Outside) (id : MachineId) (w : World) :
    (∃ row script, Resets outside id w ∧ (outside 1).fault = none ∧
      (carryOut setup outside id w).1 = .answered (.accepted row) ∧
      (carryOut setup outside id w).2.runs = w.runs ++ [⟨Task.nextRun row, script⟩]) ∨
    (∃ failure, (carryOut setup outside id w).1 = .fail failure ∧
      (carryOut setup outside id w).2.runs = w.runs ∧
      (AgreesOn id w.database (carryOut setup outside id w).2.database ∨
        Repaired setup id w (carryOut setup outside id w).2 ↔ ¬Breaks outside id w) ∧
      (Breaks outside id w → Stuck setup id w (carryOut setup outside id w).2)) := by
  have houtcome := outcome setup outside id w
  generalize carryOut setup outside id w = r at houtcome ⊢
  cases houtcome with
  | declined failure hreset =>
    have hbreaks : ¬Breaks outside id w := fun h => hreset h.1
    refine Or.inr ⟨failure, rfl, rfl, ?_, fun h => absurd h hbreaks⟩
    exact iff_of_true (Or.inl (.refl id w.database)) hbreaks
  | accepted row script hreset hcleared =>
    exact Or.inl ⟨row, script, hreset, hcleared, rfl, rfl⟩
  | repaired failure hreset hcleared hrepaired =>
    have hbreaks : ¬Breaks outside id w := fun h => h.2.2 hrepaired
    refine Or.inr ⟨failure, rfl, rfl, ?_, fun h => absurd h hbreaks⟩
    exact iff_of_true (Or.inr (repaired_setStatus hreset)) hbreaks
  | stuck failure hbreaks =>
    refine Or.inr ⟨.database failure, rfl, rfl, ?_, fun _ => stuck_reset hbreaks.1⟩
    exact iff_of_false (not_settled_reset hbreaks.1) (fun h => h hbreaks)

/-! ## A database that is lost after the first statement -/

/-- A machine that failed and has a viewer. -/
def failedWorld : World :=
  { World.empty with
    database := Service.interruptedTables.withoutInterrupted
    hub := (Hub.empty.wait 1).2 }

/-- No connection is left after the first statement. -/
def lostAfterFirst (n : Nat) : Outside :=
  { Service.calmOutside with fault := if n = 0 then none else some .noConnection }

/-- The request fails without a run, and leaves the machine as if a run were under way. -/
theorem carryOut_lostAfterFirst :
    let w := (carryOut Service.plainSetup lostAfterFirst 1 failedWorld).2
    (carryOut Service.plainSetup lostAfterFirst 1 failedWorld).1 =
      .fail (.database .noConnection) ∧
    w.runs.length = 0 ∧
    failedWorld.database.statusOf? 1 = some MachineStatus.failed.word ∧
    w.database.statusOf? 1 = some MachineStatus.provisioning.word ∧
    w.hub ≠ failedWorld.hub.notify 1 ∧
    ¬(AgreesOn 1 failedWorld.database w.database ∨
      Repaired Service.plainSetup 1 failedWorld w) := by
  intro w
  have hbefore : failedWorld.database.statusOf? 1 = some MachineStatus.failed.word := by
    decide +kernel
  have hafter : w.database.statusOf? 1 = some MachineStatus.provisioning.word := by
    decide +kernel
  have hbreaks : Breaks lostAfterFirst 1 failedWorld :=
    ⟨⟨rfl, beginReprovision_of_terminal rfl hbefore⟩, nofun, nofun⟩
  have hanswer : (carryOut Service.plainSetup lostAfterFirst 1 failedWorld).1 =
      .fail (.database .noConnection) := by
    have houtcome := outcome Service.plainSetup lostAfterFirst 1 failedWorld
    generalize carryOut Service.plainSetup lostAfterFirst 1 failedWorld = r at houtcome ⊢
    cases houtcome with
    | declined _ hreset => exact absurd hbreaks.1 hreset
    | accepted _ _ _ hcleared => exact absurd hcleared hbreaks.2.1
    | repaired _ _ _ hrepaired => exact absurd hrepaired hbreaks.2.2
    | stuck failure _ hfailure =>
      cases hfailure
      rfl
  refine ⟨hanswer, by decide +kernel, hbefore, hafter, by decide +kernel, ?_⟩
  rintro (hagrees | hrepaired)
  · have hsame := hagrees.statusOf?_eq
    rw [hbefore, hafter] at hsame
    exact nomatch MachineStatus.word_injective (Option.some.inj hsame)
  · have hfailed := hrepaired.status
    rw [hafter] at hfailed
    exact nomatch MachineStatus.word_injective (Option.some.inj hfailed)

end Reprovision

end Provisioner.Api
