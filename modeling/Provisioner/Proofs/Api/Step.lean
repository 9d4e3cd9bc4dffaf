import Provisioner.Api.Service
import Provisioner.Proofs.Run.Course

/-!
# What a step of a request does

A request acts for a machine from the moment that the provider has made the machine, or its row was
reset, until its run has started (`Task.role`). `Task.Effect` says once what a step of a request does
to the rows and the runs, and `Task.step_spec` that it does nothing else.
-/

namespace Provisioner

namespace Api

open Database

/-! ## Roles -/

/-- What a request is to a machine at some moment. -/
inductive Role where
  | none
  /-- It is about to record the machine. -/
  | recorder (id : MachineId)
  /-- It has recorded or reset the machine and is about to start its run. -/
  | trigger (id : MachineId)
deriving DecidableEq

namespace Task

/-- What a request is at its present step. -/
def role : Task → Role
  | .recording server _ => .recorder server.id
  | .announcing row _ _ | .starting row _ | .clearing row | .waking row => .trigger row.id
  | .repairing id _ => .trigger id
  | _ => .none

/-- A request announces a machine without a status, and starts the run of its own machine. -/
def Orderly : Task → Prop
  | .announcing _ _ script => script.Casual
  | .starting row run => run.machine = row.id
  | _ => True

/-! ## Effects -/

/-- All that a step of a request does to the rows and the runs, and the ids that are handed out. -/
inductive Effect (o : Outside) (w : World) (t t' : Task) (w' : World) : List MachineId → Prop where
  | passes (hrole : t'.role = t.role)
      (hstatus : ∀ id, w'.database.statusOf? id = w.database.statusOf? id)
      (hruns : w'.runs = w.runs) : Effect o w t t' w' []
  | makes (id : MachineId) (hrole : t.role = .none) (hrole' : t'.role = .recorder id)
      (hstatus : ∀ other, w'.database.statusOf? other = w.database.statusOf? other)
      (hruns : w'.runs = w.runs) : Effect o w t t' w' [id]
  | unrecorded (id : MachineId) (hrole : t.role = .recorder id) (hrole' : t'.role = .none)
      (hworld : w' = w) : Effect o w t t' w' []
  | recorded (id : MachineId) (hrole : t.role = .recorder id) (hrole' : t'.role = .trigger id)
      (hstatus : w'.database.statusOf? id = some MachineStatus.provisioning.word)
      (hothers : ∀ other, other ≠ id →
        w'.database.statusOf? other = w.database.statusOf? other)
      (hruns : w'.runs = w.runs) : Effect o w t t' w' []
  | restarted (id : MachineId) (status : MachineStatus) (hrole : t.role = .none)
      (hrole' : t'.role = .trigger id) (hterminal : status.isTerminal = true)
      (hold : w.database.statusOf? id = some status.word)
      (hstatus : w'.database.statusOf? id = some MachineStatus.provisioning.word)
      (hothers : ∀ other, other ≠ id →
        w'.database.statusOf? other = w.database.statusOf? other)
      (hruns : w'.runs = w.runs) : Effect o w t t' w' []
  | started (id : MachineId) (run : Run) (script : Script) (hrole : t.role = .trigger id)
      (hrole' : t'.role = .none) (hid : run.machine = id) (hscript : script.Running)
      (hworld : w' = w.start run script) : Effect o w t t' w' []
  | dropped (id : MachineId) (hfault : o.fault ≠ none) (hrole : t.role = .trigger id)
      (hrole' : t'.role = .none) (hworld : w' = w) : Effect o w t t' w' []
  | repaired (id : MachineId) (hrole : t.role = .trigger id) (hrole' : t'.role = .none)
      (hstatus : w'.database.statusOf? id =
        (w.database.statusOf? id).map fun _ => MachineStatus.failed.word)
      (hothers : ∀ other, other ≠ id →
        w'.database.statusOf? other = w.database.statusOf? other)
      (hruns : w'.runs = w.runs) : Effect o w t t' w' []
  | erased (id : MachineId) (hrole : t'.role = t.role)
      (hstatus : w'.database.statusOf? id = none)
      (hothers : ∀ other, other ≠ id →
        w'.database.statusOf? other = w.database.statusOf? other)
      (hruns : w'.runs = w.runs) : Effect o w t t' w' []

/-- The ids that the provider hands out in a step. -/
def newIds (o : Outside) : Task → List MachineId
  | .creating _ _ =>
    match o.creation.result with
    | .ok server => [server.id]
    | .error _ => []
  | _ => []

/-- A step goes on to an orderly request and has one of these effects. -/
def Advances (o : Outside) (w : World) (t : Task) (ids : List MachineId) (r : Task × World) : Prop :=
  r.1.Orderly ∧ Effect o w t r.1 r.2 ids

section Advances

variable {o : Outside} {w w' : World} {t t' : Task}

/-- A request that goes on in its role, or ends without one. -/
theorem advances_of_passes (horderly : t'.Orderly) (hrole : t'.role = t.role)
    (hstatus : ∀ id, w'.database.statusOf? id = w.database.statusOf? id)
    (hruns : w'.runs = w.runs) : Advances o w t [] (t', w') :=
  ⟨horderly, .passes hrole hstatus hruns⟩

/-- A request that only reads. -/
theorem advances_of_reads (horderly : t'.Orderly) (hrole : t'.role = t.role) :
    Advances o w t [] (t', w) := advances_of_passes horderly hrole (fun _ => rfl) rfl

/-- A statement fails without any effect, or goes on. -/
theorem advances_statement {next : Task × World} (hrole : t.role = .none)
    (h : Advances o w t [] next) : Advances o w t [] (statement o.fault w next) := by
  unfold statement
  split
  · exact advances_of_reads trivial hrole.symm
  · exact h

theorem advances_withMachine {id : MachineId} {next : Machine → Task} (hrole : t.role = .none)
    (h : ∀ m, Advances o w t [] (next m, w)) : Advances o w t [] (withMachine w id next, w) := by
  unfold withMachine
  split
  · exact h _
  · exact advances_of_reads trivial hrole.symm

theorem advances_recording {server : Server} {inputs : Inputs} {setup : Setup} :
    Advances o w (.recording server inputs) [] ((recording server inputs).step setup o w) := by
  simp only [step, statement]
  cases o.fault with
  | some failure => exact ⟨trivial, .unrecorded server.id rfl rfl rfl⟩
  | none =>
    cases hinsert : w.database.insert
        ⟨server.id, server.name, server.address, setup.provider, inputs⟩ with
    | error failure => exact ⟨trivial, .unrecorded server.id rfl rfl rfl⟩
    | ok result =>
      obtain ⟨row, database⟩ := result
      obtain ⟨hid, hstatus⟩ := insert_spec hinsert
      refine ⟨Script.casual_logLines _ .done, .recorded server.id rfl ?_ hstatus ?_ rfl⟩
      · exact congrArg Role.trigger hid
      · intro other hother
        exact (AgreesOn.insert hinsert hother).statusOf?_eq

theorem advances_announcing {row : Machine} {inputs : Inputs} {script : Script} {setup : Setup}
    (h : script.Casual) : Advances o w (.announcing row inputs script) []
      ((announcing row inputs script).step setup o w) := by
  cases h with
  | done => exact advances_of_reads rfl rfl
  | notify hnext => exact advances_of_passes hnext rfl (fun _ => rfl) rfl
  | write hcall hnext =>
    unfold step World.scriptStep World.write
    cases o.fault with
    | some failure => exact advances_of_reads (hnext false) rfl
    | none =>
      refine advances_of_passes (hnext _) rfl ?_ rfl
      exact statusOf?_perform _ _ (Write.setsStatus_of_isProgress hcall)

theorem advances_resetting {id : MachineId} {setup : Setup} :
    Advances o w (.resetting id) [] ((resetting id).step setup o w) := by
  unfold step
  refine advances_statement rfl ?_
  cases hrow : (w.database.beginReprovision id).1 with
  | none =>
    simp only [hrow, beginReprovision_none hrow]
    exact advances_of_reads trivial rfl
  | some row =>
    simp only [hrow]
    obtain ⟨hid, ⟨status, hterminal, hold⟩, hstatus⟩ := beginReprovision_spec hrow
    refine ⟨trivial, .restarted id status rfl (congrArg Role.trigger hid) hterminal hold hstatus ?_ rfl⟩
    intro other hother
    exact (AgreesOn.beginReprovision w.database hother).statusOf?_eq

theorem advances_clearing {row : Machine} {setup : Setup} :
    Advances o w (.clearing row) [] ((clearing row).step setup o w) := by
  unfold step World.write
  cases o.fault with
  | some failure => exact advances_of_reads trivial rfl
  | none => exact advances_of_passes trivial rfl (fun _ => rfl) rfl

theorem advances_repairing {id : MachineId} {failure : StoreFailure} {setup : Setup} :
    Advances o w (.repairing id failure) [] ((repairing id failure).step setup o w) := by
  unfold step World.write
  cases hfault : o.fault with
  | some fault =>
    refine ⟨trivial, .dropped id ?_ rfl rfl rfl⟩
    rw [hfault]
    exact nofun
  | none =>
    refine ⟨trivial, .repaired id rfl rfl (statusOf?_setStatus _ id _) ?_ rfl⟩
    intro other hother
    exact (AgreesOn.perform w.database hother (.setStatus .failed)).statusOf?_eq

theorem advances_erasing {id : MachineId} {setup : Setup} :
    Advances o w (.erasing id) [] ((erasing id).step setup o w) := by
  unfold step
  refine advances_statement rfl ⟨trivial, .erased id rfl (statusOf?_erase_self _ id) ?_ rfl⟩
  intro other hother
  exact (AgreesOn.erase w.database hother).statusOf?_eq

end Advances

/-- **What a step of a request does.** -/
theorem step_spec {t : Task} (h : t.Orderly) (setup : Setup) (o : Outside) (w : World) :
    Advances o w t (t.newIds o) (t.step setup o w) := by
  cases t with
  | creating name inputs =>
    unfold step newIds
    cases o.creation.result with
    | error failure => exact advances_of_passes trivial rfl (fun _ => rfl) rfl
    | ok server => exact ⟨trivial, .makes server.id rfl rfl (fun _ => rfl) rfl⟩
  | recording server inputs => exact advances_recording
  | announcing row inputs script => exact advances_announcing h
  | starting row run =>
    exact ⟨trivial, .started row.id run _ rfl rfl h (run.running_script setup.equipment o.run) rfl⟩
  | resetting id => exact advances_resetting
  | refusing id =>
    exact advances_statement rfl (advances_withMachine rfl fun _ => advances_of_reads trivial rfl)
  | clearing row => exact advances_clearing
  | waking row => exact advances_of_passes rfl rfl (fun _ => rfl) rfl
  | repairing id failure => exact advances_repairing
  | wakingFailed id failure => exact advances_of_passes trivial rfl (fun _ => rfl) rfl
  | finding id =>
    exact advances_statement rfl (advances_withMachine rfl fun _ => advances_of_reads trivial rfl)
  | dismissing id =>
    obtain ⟨servers, ⟨failure, hstep⟩ | hstep⟩ := step_dismissing_cases setup o id w
    · rw [hstep]
      exact advances_of_passes trivial rfl (fun _ => rfl) rfl
    · rw [hstep]
      exact advances_of_passes trivial rfl (fun _ => rfl) rfl
  | erasing id => exact advances_erasing
  | forgetting id => exact advances_of_passes trivial rfl (fun _ => rfl) rfl
  | listing => exact advances_statement rfl (advances_of_reads trivial rfl)
  | showing id =>
    exact advances_statement rfl (advances_withMachine rfl fun _ => advances_of_reads trivial rfl)
  | findingLog id after =>
    exact advances_statement rfl (advances_withMachine rfl fun _ => advances_of_reads trivial rfl)
  | readingLog id after => exact advances_statement rfl (advances_of_reads trivial rfl)
  | opening id =>
    unfold step
    cases o.fault with
    | some failure => exact advances_of_reads trivial rfl
    | none =>
      simp only
      split <;> exact advances_of_reads trivial rfl
  | checkingHealth => exact advances_of_reads trivial rfl
  | answered answer => exact advances_of_reads trivial rfl

namespace Effect

variable {o : Outside} {w w' : World} {t t' : Task} {ids : List MachineId}

/-- A step of a request adds at most the run that it starts. -/
theorem runs (h : Effect o w t t' w' ids) {P : ActiveRun → Prop}
    (hruns : ∀ active ∈ w.runs, P active)
    (hstarted : ∀ active : ActiveRun, active.script.Running → P active) :
    ∀ active ∈ w'.runs, P active := by
  cases h with
  | passes _ _ hruns' | makes _ _ _ _ hruns' | recorded _ _ _ _ _ hruns'
  | restarted _ _ _ _ _ _ _ _ hruns' | repaired _ _ _ _ _ hruns' | erased _ _ _ _ hruns' =>
    rw [hruns']
    exact hruns
  | unrecorded _ _ _ hworld | dropped _ _ _ _ hworld =>
    rw [hworld]
    exact hruns
  | started _ run script _ _ _ hscript hworld =>
    subst hworld
    intro active hactive
    rcases List.mem_append.mp hactive with hactive | hactive
    · exact hruns active hactive
    · rw [List.mem_singleton.mp hactive]
      exact hstarted _ hscript

end Effect

end Task

/-! ## Requests that arrive -/

/-- The tasks that requests become. -/
inductive Task.Initial : Task → Prop where
  | creating (name : String) (inputs : Inputs) : Initial (.creating name inputs)
  | resetting (id : MachineId) : Initial (.resetting id)
  | finding (id : MachineId) : Initial (.finding id)
  | listing : Initial .listing
  | showing (id : MachineId) : Initial (.showing id)
  | findingLog (id : MachineId) (after : Int) : Initial (.findingLog id after)
  | opening (id : MachineId) : Initial (.opening id)
  | checkingHealth : Initial .checkingHealth
  | failed (failure : Failure) : Initial (.answered (.failed failure))

namespace Start

/-- What a request becomes acts for no machine yet. -/
def Idle : Start → Prop
  | .response _ => True
  | .task t => t.role = .none ∧ t.Orderly

variable {r : Request} {name : String} {raw : List Char} {t : Task}

theorem initial_withId {next : MachineId → Task} (hnext : ∀ id, (next id).Initial)
    (h : withId raw next = .task t) : t.Initial := by
  unfold withId at h
  split at h
  · cases h
    exact hnext _
  · cases h

theorem initial_create (h : create r name = .task t) : t.Initial := by
  unfold create at h
  split at h
  · cases h
  split at h
  · cases h
  split at h
  · cases h
    unfold Task.ofCreateRequest
    split
    · exact .creating _ _
    split
    · exact .creating _ _
    · exact .failed _
  · cases h

theorem initial_log (h : log r raw = .task t) : t.Initial := by
  unfold log at h
  split at h
  · cases h
    exact .findingLog _ _
  · cases h

theorem initial_stream (h : stream r raw = .task t) : t.Initial := by
  unfold stream at h
  split at h
  · cases h
  split at h
  · cases h
  split at h
  · cases h
    exact .opening _
  · cases h
    exact .failed _

theorem initial_ofRequest (h : ofRequest r name = .task t) : t.Initial := by
  unfold ofRequest at h
  split at h
  · cases h
  split at h
  · cases h
  · rename_i endpoint _
    cases endpoint with
    | health =>
      cases h
      exact .checkingHealth
    | list =>
      cases h
      exact .listing
    | create => exact initial_create h
    | «show» id => exact initial_withId .showing h
    | delete id => exact initial_withId .finding h
    | log id => exact initial_log h
    | reprovision id => exact initial_withId .resetting h
    | stream id => exact initial_stream h

theorem idle_ofRequest (r : Request) (name : String) : (ofRequest r name).Idle := by
  cases h : ofRequest r name with
  | response _ => trivial
  | task t => cases initial_ofRequest h <;> exact ⟨rfl, trivial⟩

end Start

end Api

end Provisioner
