import Provisioner.Proofs.Api.Step

/-!
# What a step of a request writes

A request that has begun a job for a machine has a *part* in it (`Task.part?`): first it may only
clear the log, and then it may write lines. `Task.Stroke` says once what a step of a request does to
the tables and the runs, by its part before and after, and `Task.stroke_step` that it does nothing
else.
-/

namespace Provisioner

namespace Api

open Database

/-! ## The parts of those who act -/

/-- What somebody may do for a machine. -/
inductive Part where
  /-- The row was set back, and the log is to be cleared before anything else is written. -/
  | holding
  /-- Lines may be written. -/
  | writing
deriving DecidableEq

/-- The writes that belong to a part. -/
def Part.Fits : Part → Write → Prop
  | .holding, call => call = .clearLog ∨ call = .setStatus .failed
  | .writing, call =>
    call.isProgress = true ∨ ∃ status, call = .setStatus status ∧ status.isTerminal = true

namespace Task

/-- The machine that a request has begun a job for, and its part in that. -/
def part? : Task → Option (MachineId × Part)
  | .announcing row _ _ | .starting row _ | .waking row => some (row.id, .writing)
  | .clearing row => some (row.id, .holding)
  | .repairing id _ => some (id, .holding)
  | _ => none

/-- The write that a request makes in its next step. -/
def write? : Task → Option (MachineId × Write)
  | .announcing row _ (.write call _) => some (row.id, call)
  | .clearing row => some (row.id, .clearLog)
  | .repairing id _ => some (id, .setStatus .failed)
  | _ => none

/-- Whether a request starts a run in its next step. -/
def starts : Task → Bool
  | .starting _ _ => true
  | _ => false

/-- Whether a request begins a job by going on to another. -/
def begins (t t' : Task) : Bool := t.part?.isNone && t'.part?.isSome

/-- Those who have a part are those who are about to start a run. -/
theorem role_of_part {t : Task} {id : MachineId} {part : Part} (h : t.part? = some (id, part)) :
    t.role = .trigger id := by
  cases t with
  | announcing _ _ _ | starting _ _ | waking _ | clearing _ | repairing _ _ =>
    cases h
    rfl
  | _ => cases h

end Task

/-! ## Steps of requests -/

namespace Task

/-- All that a step of a request does to the tables and the runs, by its part before and after. -/
inductive Stroke (o : Outside) (w : World) (t t' : Task) (w' : World) : Prop where
  | rests (hpart : t'.part? = t.part? ∨ t'.part? = none) (hcall : t.write? = none ∨ o.fault ≠ none)
      (hstarts : t.starts = false) (hdatabase : w'.database = w.database)
      (hruns : w'.runs = w.runs)
  | wrote (id : MachineId) (part : Part) (call : Write) (hpart : t.part? = some (id, part))
      (hfits : part.Fits call) (hcall : t.write? = some (id, call)) (hfault : o.fault = none)
      (hpart' : call ≠ .clearLog → t'.part? = t.part? ∨ t'.part? = none)
      (hcleared : call = .clearLog → t'.part? = some (id, .writing)) (hstarts : t.starts = false)
      (hdatabase : w'.database = (w.database.perform id call).2) (hruns : w'.runs = w.runs)
  | recorded (new : NewMachine) (row : Machine) (hpart : t.part? = none)
      (hpart' : t'.part? = some (new.id, .writing)) (hcall : t.write? = none)
      (hstarts : t.starts = false) (hdatabase : w.database.insert new = .ok (row, w'.database))
      (hruns : w'.runs = w.runs)
  | restarted (id : MachineId) (row : Machine) (hpart : t.part? = none)
      (hpart' : t'.part? = some (id, .holding)) (hcall : t.write? = none)
      (hstarts : t.starts = false) (hrow : (w.database.beginReprovision id).1 = some row)
      (hdatabase : w'.database = (w.database.beginReprovision id).2) (hruns : w'.runs = w.runs)
  | started (run : Run) (script : Script) (hpart : t.part? = some (run.machine, .writing))
      (hpart' : t'.part? = none) (hcall : t.write? = none) (hstarts : t.starts = true)
      (hworld : w' = w.start run script)
  | erased (id : MachineId) (hpart : t.part? = none) (hpart' : t'.part? = none)
      (hcall : t.write? = none) (hstarts : t.starts = false)
      (hdatabase : w'.database = (w.database.erase id).2) (hruns : w'.runs = w.runs)

section Stroke

variable {setup : Setup} {o : Outside} {w : World} {t : Task}

/-- A request that only reads. -/
theorem stroke_of_reads {t' : Task} (hpart : t'.part? = none) (hcall : t.write? = none)
    (hstarts : t.starts = false) : Stroke o w t t' w :=
  .rests (Or.inr hpart) (Or.inl hcall) hstarts rfl rfl

theorem stroke_statement {r : Task × World} (hcall : t.write? = none) (hstarts : t.starts = false)
    (h : Stroke o w t r.1 r.2) :
    Stroke o w t (statement o.fault w r).1 (statement o.fault w r).2 := by
  unfold statement
  split
  · exact stroke_of_reads rfl hcall hstarts
  · exact h

theorem part?_withMachine {id : MachineId} {next : Machine → Task}
    (h : ∀ m, (next m).part? = none) : (withMachine w id next).part? = none := by
  unfold withMachine
  split
  · exact h _
  · rfl

theorem stroke_recording {server : Server} {inputs : Inputs} :
    Stroke o w (.recording server inputs) ((recording server inputs).step setup o w).1
      ((recording server inputs).step setup o w).2 := by
  unfold step
  refine stroke_statement rfl rfl ?_
  cases hinsert : w.database.insert
      ⟨server.id, server.name, server.address, setup.provider, inputs⟩ with
  | error failure =>
    simp only
    exact stroke_of_reads rfl rfl rfl
  | ok result =>
    obtain ⟨row, database⟩ := result
    obtain ⟨hid, -⟩ := insert_spec hinsert
    simp only
    refine .recorded _ row rfl ?_ rfl rfl hinsert rfl
    exact congrArg (fun id => some (id, Part.writing)) hid

theorem stroke_announcing {row : Machine} {inputs : Inputs} {script : Script} (h : script.Casual) :
    Stroke o w (.announcing row inputs script) ((announcing row inputs script).step setup o w).1
      ((announcing row inputs script).step setup o w).2 := by
  cases h with
  | done => exact .rests (Or.inl rfl) (Or.inl rfl) rfl rfl rfl
  | notify _ => exact .rests (Or.inl rfl) (Or.inl rfl) rfl rfl rfl
  | @write call next hcall _ =>
    unfold step World.scriptStep World.write
    cases hfault : o.fault with
    | some failure =>
      refine .rests (Or.inl rfl) (Or.inr ?_) rfl rfl rfl
      rw [hfault]
      exact nofun
    | none =>
      refine .wrote row.id .writing call rfl (Or.inl hcall) rfl hfault (fun _ => Or.inl rfl) ?_ rfl
        rfl rfl
      exact fun _ => rfl

theorem stroke_resetting {id : MachineId} :
    Stroke o w (.resetting id) ((resetting id).step setup o w).1
      ((resetting id).step setup o w).2 := by
  unfold step
  refine stroke_statement rfl rfl ?_
  cases hrow : (w.database.beginReprovision id).1 with
  | none =>
    simp only [hrow, beginReprovision_none hrow]
    exact stroke_of_reads rfl rfl rfl
  | some row =>
    simp only [hrow]
    obtain ⟨hid, -, -⟩ := beginReprovision_spec hrow
    refine .restarted id row rfl ?_ rfl rfl hrow rfl rfl
    exact congrArg (fun id => some (id, Part.holding)) hid

theorem stroke_clearing {row : Machine} :
    Stroke o w (.clearing row) ((clearing row).step setup o w).1
      ((clearing row).step setup o w).2 := by
  unfold step World.write
  cases hfault : o.fault with
  | some failure =>
    refine .rests (Or.inl rfl) (Or.inr ?_) rfl rfl rfl
    rw [hfault]
    exact nofun
  | none =>
    exact .wrote row.id .holding .clearLog rfl (Or.inl rfl) rfl hfault (absurd rfl)
      (fun _ => rfl) rfl rfl rfl

theorem stroke_repairing {id : MachineId} {failure : StoreFailure} :
    Stroke o w (.repairing id failure) ((repairing id failure).step setup o w).1
      ((repairing id failure).step setup o w).2 := by
  unfold step World.write
  cases hfault : o.fault with
  | some fault =>
    refine .rests (Or.inr rfl) (Or.inr ?_) rfl rfl rfl
    rw [hfault]
    exact nofun
  | none =>
    exact .wrote id .holding (.setStatus .failed) rfl (Or.inr rfl) rfl hfault
      (fun _ => Or.inr rfl) nofun rfl rfl rfl

/-- **What a step of a request does to the tables and the runs.** -/
theorem stroke_step (h : t.Orderly) (setup : Setup) (o : Outside) (w : World) :
    Stroke o w t (t.step setup o w).1 (t.step setup o w).2 := by
  cases t with
  | creating name inputs =>
    unfold step
    cases o.creation.result with
    | error failure => exact .rests (Or.inl rfl) (Or.inl rfl) rfl rfl rfl
    | ok server => exact .rests (Or.inl rfl) (Or.inl rfl) rfl rfl rfl
  | recording server inputs => exact stroke_recording
  | announcing row inputs script => exact stroke_announcing h
  | starting row run =>
    refine .started run _ ?_ rfl rfl rfl rfl
    exact congrArg (fun id => some (id, Part.writing)) h.symm
  | resetting id => exact stroke_resetting
  | refusing id =>
    exact stroke_statement rfl rfl (stroke_of_reads (part?_withMachine fun _ => rfl) rfl rfl)
  | clearing row => exact stroke_clearing
  | waking row => exact .rests (Or.inl rfl) (Or.inl rfl) rfl rfl rfl
  | repairing id failure => exact stroke_repairing
  | wakingFailed id failure => exact .rests (Or.inl rfl) (Or.inl rfl) rfl rfl rfl
  | finding id =>
    exact stroke_statement rfl rfl (stroke_of_reads (part?_withMachine fun _ => rfl) rfl rfl)
  | dismissing id =>
    obtain ⟨servers, ⟨failure, hstep⟩ | hstep⟩ := step_dismissing_cases setup o id w
    · rw [hstep]
      exact .rests (Or.inl rfl) (Or.inl rfl) rfl rfl rfl
    · rw [hstep]
      exact .rests (Or.inl rfl) (Or.inl rfl) rfl rfl rfl
  | erasing id =>
    unfold step
    exact stroke_statement rfl rfl (.erased id rfl rfl rfl rfl rfl rfl)
  | forgetting id => exact .rests (Or.inl rfl) (Or.inl rfl) rfl rfl rfl
  | listing => exact stroke_statement rfl rfl (stroke_of_reads rfl rfl rfl)
  | showing id =>
    exact stroke_statement rfl rfl (stroke_of_reads (part?_withMachine fun _ => rfl) rfl rfl)
  | findingLog id after =>
    exact stroke_statement rfl rfl (stroke_of_reads (part?_withMachine fun _ => rfl) rfl rfl)
  | readingLog id after => exact stroke_statement rfl rfl (stroke_of_reads rfl rfl rfl)
  | opening id =>
    unfold step
    cases o.fault with
    | some failure => exact stroke_of_reads rfl rfl rfl
    | none =>
      simp only
      split <;> exact stroke_of_reads rfl rfl rfl
  | checkingHealth => exact stroke_of_reads rfl rfl rfl
  | answered answer => exact stroke_of_reads rfl rfl rfl

end Stroke

end Task

end Api

end Provisioner
