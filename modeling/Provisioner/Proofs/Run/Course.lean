import Provisioner.Proofs.Store.Row
import Provisioner.World

/-!
# The course of a run

A run logs lines and notes what it finds, then writes its terminal status, and after that only wakes
the viewers. What is left of its script is therefore `Running` until the status is written, whatever
becomes of the writes before, and `Silent` afterwards.

* `running_script`: the script of every run is `Running` at its start.
* `Running.next` / `Silent.not_write`: what is left after a step is `Running` or `Silent` again.
-/

namespace Provisioner

namespace Script

/-- Only notifications are left. -/
inductive Silent : Script → Prop where
  | done : Silent .done
  | notify {next : Script} (h : Silent next) : Silent (.notify next)

/-- Only notes of progress and notifications are left. -/
inductive Casual : Script → Prop where
  | done : Casual .done
  | write {call : Write} {next : Bool → Script} (hcall : call.isProgress = true)
      (h : ∀ succeeded, Casual (next succeeded)) : Casual (.write call next)
  | notify {next : Script} (h : Casual next) : Casual (.notify next)

/-- Notes of progress and notifications are left, then a terminal status, then notifications. -/
inductive Running : Script → Prop where
  | progress {call : Write} {next : Bool → Script} (hcall : call.isProgress = true)
      (h : ∀ succeeded, Running (next succeeded)) : Running (.write call next)
  | notify {next : Script} (h : Running next) : Running (.notify next)
  | last {status : MachineStatus} {next : Bool → Script} (hstatus : status.isTerminal = true)
      (h : ∀ succeeded, Silent (next succeeded)) : Running (.write (.setStatus status) next)

/-- Whether a status may still be written. -/
def awaitsStatus : Script → Bool
  | .done => false
  | .write call next => call.setsStatus || (next true).awaitsStatus || (next false).awaitsStatus
  | .notify next => next.awaitsStatus

/-- Whether anything may still be written. -/
def mayWrite : Script → Bool
  | .done => false
  | .write _ _ => true
  | .notify next => next.mayWrite

namespace Silent

variable {script : Script}

theorem not_write {call : Write} {next : Bool → Script} : ¬Silent (.write call next) := by
  intro h
  cases h

theorem awaitsStatus_eq (h : Silent script) : script.awaitsStatus = false := by
  induction h with
  | done => rfl
  | notify _ ih => exact ih

theorem mayWrite_eq (h : Silent script) : script.mayWrite = false := by
  induction h with
  | done => rfl
  | notify _ ih => exact ih

/-- Whatever writes nothing any more is silent. -/
theorem of_mayWrite (h : script.mayWrite = false) : Silent script := by
  induction script with
  | done => exact .done
  | write call next ih => cases h
  | notify next ih => exact .notify (ih h)

end Silent

namespace Running

variable {script : Script}

theorem awaitsStatus_eq (h : Running script) : script.awaitsStatus = true := by
  induction h with
  | progress _ _ ih =>
    unfold awaitsStatus
    rw [ih true, Bool.or_true, Bool.true_or]
  | notify _ ih => exact ih
  | last _ _ => simp [awaitsStatus, Write.setsStatus]

theorem mayWrite_eq (h : Running script) : script.mayWrite = true := by
  induction h with
  | progress _ _ _ => rfl
  | notify _ ih => exact ih
  | last _ _ => rfl

/-- After a write other than that of a status the run goes on. -/
theorem next {call : Write} {next : Bool → Script} (h : Running (.write call next))
    (hcall : call.setsStatus = false) (succeeded : Bool) : Running (next succeeded) := by
  cases h with
  | progress _ h => exact h succeeded
  | last _ _ => cases hcall

/-- The writes of a run are notes of progress and one terminal status. -/
theorem write_cases {call : Write} {next : Bool → Script} (h : Running (.write call next)) :
    (call.isProgress = true ∧ ∀ succeeded, Running (next succeeded)) ∨
      ∃ status, call = .setStatus status ∧ status.isTerminal = true ∧
        ∀ succeeded, Silent (next succeeded) := by
  cases h with
  | progress hcall h => exact Or.inl ⟨hcall, h⟩
  | last hstatus h => exact Or.inr ⟨_, rfl, hstatus, h⟩

end Running

/-! ## The script of a run -/

theorem casual_logLine (line : String) {next : Script} (h : Casual next) :
    Casual (logLine line next) := by
  refine .write rfl fun _ => .notify ?_
  split
  · refine .write rfl fun stored => ?_
    cases stored
    · exact h
    · exact .notify h
  · exact h

theorem casual_logLines (lines : List String) {next : Script} (h : Casual next) :
    Casual (logLines lines next) := by
  induction lines with
  | nil => exact h
  | cons line lines ih => exact casual_logLine line ih

theorem running_logLine (line : String) {next : Script} (h : Running next) :
    Running (logLine line next) := by
  refine .progress rfl fun _ => .notify ?_
  split
  · refine .progress rfl fun stored => ?_
    cases stored
    · exact h
    · exact .notify h
  · exact h

theorem running_logLines (lines : List String) {next : Script} (h : Running next) :
    Running (logLines lines next) := by
  induction lines with
  | nil => exact h
  | cons line lines ih => exact running_logLine line ih

end Script

namespace Run

open Script

theorem running_finish {status : MachineStatus} (h : status.isTerminal = true) :
    Running (finish status) := .last h fun _ => .notify .done

theorem running_noteKey (inputs : Inputs) {next : Script} (h : Running next) :
    Running (noteKey inputs next) := by
  unfold noteKey
  split
  · exact .progress rfl fun _ => h
  · exact h

theorem running_noteWallet (wallet : String) {next : Script} (h : Running next) :
    Running (noteWallet wallet next) := by
  unfold noteWallet
  split
  · exact h
  · exact running_logLine _ (.progress rfl fun _ => h)

theorem running_conclude (inputs : Inputs) (result : Except RunFailure String) :
    Running (conclude inputs result) := by
  cases result with
  | error failure => exact running_logLine _ (running_finish rfl)
  | ok wallet => exact running_noteWallet wallet (running_noteKey inputs (running_finish rfl))

/-- **Every run writes a terminal status, and nothing after it.** -/
theorem running_script (run : Run) (equipment : Equipment) (c : Circumstances) :
    Running (run.script equipment c) :=
  running_logLines _ (running_conclude run.inputs _)

end Run

/-! ## Steps of the runs under way -/

namespace World

/-- All that a step of the n-th run does. -/
inductive RunStep (w : World) (n : Nat) (fault : Option DatabaseFailure) : World → Prop where
  /-- There is no such run, or nothing is left of it. -/
  | idle : RunStep w n fault w
  /-- A write fails. -/
  | failed {active : ActiveRun} {call : Write} {next : Bool → Script}
      (hrun : w.runs[n]? = some active) (hscript : active.script = .write call next)
      (hfault : fault ≠ none) :
      RunStep w n fault { w with runs := w.runs.set n { active with script := next false } }
  /-- A write is carried out, though the database may refuse it. -/
  | written {active : ActiveRun} {call : Write} {next : Bool → Script} {succeeded : Bool}
      (hrun : w.runs[n]? = some active) (hscript : active.script = .write call next)
      (hresult : (w.database.perform active.run.machine call).1.isOk = succeeded) :
      RunStep w n fault
        { w with
          database := (w.database.perform active.run.machine call).2
          runs := w.runs.set n { active with script := next succeeded } }
  /-- The viewers are woken. -/
  | notified {active : ActiveRun} {next : Script}
      (hrun : w.runs[n]? = some active) (hscript : active.script = .notify next) :
      RunStep w n fault
        { w with
          hub := w.hub.notify active.run.machine
          runs := w.runs.set n { active with script := next } }

theorem runStep_spec (w : World) (n : Nat) (fault : Option DatabaseFailure) :
    RunStep w n fault (w.runStep n fault) := by
  unfold runStep
  cases hrun : w.runs[n]? with
  | none => exact .idle
  | some active =>
    obtain ⟨run, script⟩ := active
    cases script with
    | done =>
      have hsame : w.runs.set n ⟨run, .done⟩ = w.runs := by
        obtain ⟨hn, hget⟩ := List.getElem?_eq_some_iff.mp hrun
        rw [← hget, List.set_getElem_self]
      simp only [scriptStep]
      rw [hsame]
      exact .idle
    | write call next =>
      cases fault with
      | some failure => exact .failed hrun rfl nofun
      | none => exact .written hrun rfl rfl
    | notify next => exact .notified hrun rfl

end World

end Provisioner
