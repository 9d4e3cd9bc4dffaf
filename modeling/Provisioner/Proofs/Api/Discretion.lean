import Provisioner.Api.Admission
import Provisioner.Proofs.Api.Course
import Provisioner.Proofs.Run.Discretion
import Provisioner.Proofs.Store.Bare

/-!
# Nobody sees the inputs

`World.bare` leaves out the inputs of the machines and the runs under way. A request is carried out
there as in the world itself: it comes to the same answer, and what it leaves is the same, inputs
apart (`Task.step_bare`). A session does the very same in both (`Session.step_bare`). So two worlds
that differ in nothing but inputs cannot be told apart by asking (`inputs_unseen`).
-/

namespace Provisioner

/-! ## What requests and viewers see of the world -/

/-- The world without the inputs of its machines, and without the runs, which nobody is shown. -/
def World.bare (w : World) : World := { w with database := w.database.bare, runs := [] }

namespace World

variable (w : World) (id : MachineId)

@[simp] theorem bare_bare : w.bare.bare = w.bare := by
  simp [bare]

@[simp] theorem database_bare : w.bare.database = w.database.bare := rfl
@[simp] theorem notify_bare : w.bare.notify id = (w.notify id).bare := rfl

/-- The tables, the hub and the provider's machines are all that the bare world shows. -/
theorem bare_congr {w w' : World} (hdatabase : w.database.bare = w'.database.bare)
    (hhub : w.hub = w'.hub) (hservers : w.servers = w'.servers)
    (hdraining : w.draining = w'.draining) : w.bare = w'.bare := by
  unfold bare
  rw [hdatabase, hhub, hservers, hdraining]

/-- If tables that differ in inputs alone take the place of others, bare worlds stay the same. -/
theorem bare_withDatabase {db db' : Database} (h : db.bare = db'.bare) :
    ({ w.bare with database := db } : World).bare = ({ w with database := db' } : World).bare :=
  bare_congr h rfl rfl rfl

@[simp] theorem write_bare (call : Write) (fault : Option DatabaseFailure) :
    w.bare.write id call fault = ((w.write id call fault).1, (w.write id call fault).2.bare) := by
  cases fault with
  | some failure => rfl
  | none =>
    simp only [write, database_bare, Database.perform_bare]
    rfl

@[simp] theorem scriptStep_bare (fault : Option DatabaseFailure) (script : Script) :
    w.bare.scriptStep id fault script =
      ((w.scriptStep id fault script).1, (w.scriptStep id fault script).2.bare) := by
  cases script with
  | done => rfl
  | write call next => simp only [scriptStep, write_bare]
  | notify next => rfl

end World

namespace Api

/-! ## Requests and answers without inputs -/

/-- What a task comes to, without inputs. -/
def Answer.bare : Answer → Answer
  | .accepted m => .accepted m.bare
  | .machines list => .machines (list.map Machine.bare)
  | .machine m => .machine m.bare
  | answer => answer

/-- **A response shows nothing of the inputs.** -/
@[simp] theorem Response.ofAnswer_bare (answer : Answer) : ofAnswer answer.bare = ofAnswer answer := by
  cases answer with
  | machines list =>
    simp only [Answer.bare, ofAnswer, List.map_map]
    rfl
  | _ => rfl

namespace Task

/-- A request that is being carried out, without inputs. -/
def bare : Task → Task
  | .creating name _ => .creating name .empty
  | .recording server _ => .recording server .empty
  | .announcing row _ script => .announcing row.bare .empty script
  | .starting row run => .starting row.bare run.bare
  | .clearing row => .clearing row.bare
  | .waking row => .waking row.bare
  | .answered answer => .answered answer.bare
  | t => t

/-- What comes of a step on the bare world is what comes of it on the world, without inputs. -/
structure Bares (after bare : Task × World) : Prop where
  task : bare.1 = after.1.bare
  world : bare.2.bare = after.2.bare

variable {setup : Setup} {o : Outside} {w : World}

theorem Bares.statement {next next' : Task × World} (h : Bares next next')
    (fault : Option DatabaseFailure) :
    Bares (Task.statement fault w next) (Task.statement fault w.bare next') := by
  cases fault with
  | some failure => exact ⟨rfl, w.bare_bare⟩
  | none => exact h

theorem withMachine_bare (id : MachineId) {next next' : Machine → Task}
    (h : ∀ m : Machine, next' m.bare = (next m).bare) :
    withMachine w.bare id next' = (withMachine w id next).bare := by
  unfold withMachine
  rw [World.database_bare, Database.find?_bare]
  cases w.database.find? id with
  | none => rfl
  | some m => exact h m

theorem Bares.withMachine (fault : Option DatabaseFailure) (id : MachineId)
    {next next' : Machine → Task} (h : ∀ m : Machine, next' m.bare = (next m).bare) :
    Bares (Task.statement fault w (Task.withMachine w id next, w))
      (Task.statement fault w.bare (Task.withMachine w.bare id next', w.bare)) :=
  Bares.statement ⟨withMachine_bare id h, w.bare_bare⟩ fault

theorem dismiss_bare (id : MachineId) (deletion : Deletion) :
    dismiss w.bare id deletion = ((dismiss w id deletion).1, (dismiss w id deletion).2.bare) := rfl

/-! ## The stages of a request -/

theorem bares_creating (name : String) (inputs : Inputs) :
    Bares ((creating name inputs).step setup o w) ((creating name .empty).step setup o w.bare) := by
  have hmade : ({ w.bare with servers := w.servers ++ o.creation.made.toList } : World).bare =
      ({ w with servers := w.servers ++ o.creation.made.toList } : World).bare :=
    World.bare_congr w.database.bare_bare rfl rfl rfl
  simp only [step]
  cases o.creation.result with
  | error failure => exact ⟨rfl, hmade⟩
  | ok server => exact ⟨rfl, hmade⟩

theorem bares_recording (server : Server) (inputs : Inputs) :
    Bares ((recording server inputs).step setup o w)
      ((recording server .empty).step setup o w.bare) := by
  refine Bares.statement ?_ o.fault
  have hinsert := w.database.insert_bare
    ⟨server.id, server.name, server.address, setup.provider, inputs⟩
  simp only [NewMachine.bare] at hinsert
  rw [World.database_bare, hinsert]
  cases w.database.insert ⟨server.id, server.name, server.address, setup.provider, inputs⟩ with
  | error failure => exact ⟨rfl, w.bare_bare⟩
  | ok recorded => exact ⟨rfl, w.bare_withDatabase (Database.bare_bare _)⟩

theorem bares_announcing (row : Machine) (inputs : Inputs) (script : Script) :
    Bares ((announcing row inputs script).step setup o w)
      ((announcing row.bare .empty script).step setup o w.bare) := by
  cases script with
  | done => exact ⟨rfl, w.bare_bare⟩
  | _ =>
    simp only [step, World.scriptStep_bare]
    exact ⟨rfl, World.bare_bare _⟩

theorem bares_resetting (id : MachineId) :
    Bares ((resetting id).step setup o w) ((resetting id).step setup o w.bare) := by
  refine Bares.statement ?_ o.fault
  simp only [World.database_bare, Database.beginReprovision_bare]
  cases (w.database.beginReprovision id).1 with
  | none => exact ⟨rfl, w.bare_withDatabase (Database.bare_bare _)⟩
  | some row => exact ⟨rfl, w.bare_withDatabase (Database.bare_bare _)⟩

theorem bares_clearing (row : Machine) :
    Bares ((clearing row).step setup o w) ((clearing row.bare).step setup o w.bare) := by
  simp only [step, World.write_bare, Machine.id_bare]
  cases (w.write row.id .clearLog o.fault).1 with
  | error failure => exact ⟨rfl, World.bare_bare _⟩
  | ok => exact ⟨rfl, World.bare_bare _⟩

theorem bares_waking (row : Machine) :
    Bares ((waking row).step setup o w) ((waking row.bare).step setup o w.bare) := by
  have hrun : nextRun row.bare = (nextRun row).bare := by
    simp only [nextRun, Run.bare, Machine.inputs_bare]
    rfl
  simp only [step, World.notify_bare, hrun]
  exact ⟨rfl, World.bare_bare _⟩

theorem bares_repairing (id : MachineId) (failure : StoreFailure) :
    Bares ((repairing id failure).step setup o w)
      ((repairing id failure).step setup o w.bare) := by
  simp only [step, World.write_bare]
  cases (w.write id (.setStatus .failed) o.fault).1 with
  | error fault => exact ⟨rfl, World.bare_bare _⟩
  | ok => exact ⟨rfl, World.bare_bare _⟩

theorem bares_opening (id : MachineId) :
    Bares ((opening id).step setup o w) ((opening id).step setup o w.bare) := by
  simp only [step, World.database_bare, Database.snapshot_bare]
  cases o.fault with
  | some failure => exact ⟨rfl, w.bare_bare⟩
  | none =>
    cases w.database.snapshot id with
    | error failure => exact ⟨rfl, w.bare_bare⟩
    | ok found => cases found <;> exact ⟨rfl, w.bare_bare⟩

/-- **A step of a request does not hang on the inputs in the world.** -/
theorem step_bare (setup : Setup) (o : Outside) (t : Task) (w : World) :
    Bares (t.step setup o w) (t.bare.step setup o w.bare) := by
  cases t with
  | creating name inputs => exact bares_creating name inputs
  | recording server inputs => exact bares_recording server inputs
  | announcing row inputs script => exact bares_announcing row inputs script
  | resetting id => exact bares_resetting id
  | clearing row => exact bares_clearing row
  | waking row => exact bares_waking row
  | repairing id failure => exact bares_repairing id failure
  | wakingFailed id failure => exact ⟨rfl, World.bare_bare (w.notify id)⟩
  | dismissing id =>
    simp only [bare, step, dismiss_bare]
    cases dismiss w id o.deletion with
    | mk result w' =>
      cases result with
      | error failure => exact ⟨rfl, w'.bare_bare⟩
      | ok _ => exact ⟨rfl, w'.bare_bare⟩
  | erasing id =>
    refine Bares.statement ?_ o.fault
    simp only [World.database_bare, Database.erase_bare]
    exact ⟨rfl, w.bare_withDatabase (Database.bare_bare _)⟩
  | forgetting id => exact ⟨rfl, World.bare_congr w.database.bare_bare rfl rfl rfl⟩
  | listing =>
    refine Bares.statement ⟨?_, w.bare_bare⟩ o.fault
    simp only [bare, Answer.bare, World.database_bare, Database.list_bare]
  | readingLog id after => exact Bares.statement ⟨rfl, w.bare_bare⟩ o.fault
  | opening id => exact bares_opening id
  | refusing id | finding id | showing id | findingLog id after =>
    exact Bares.withMachine o.fault id fun _ => rfl
  | starting row run | checkingHealth | answered answer => exact ⟨rfl, w.bare_bare⟩

/-! ## The course of a request -/

variable {t t' : Task} {w' : World}

/-- In two worlds that differ in inputs alone, a step comes to the same up to inputs. -/
theorem step_congr (htask : t.bare = t'.bare) (hworld : w.bare = w'.bare) :
    (t.step setup o w).1.bare = (t'.step setup o w').1.bare ∧
      (t.step setup o w).2.bare = (t'.step setup o w').2.bare := by
  have h := t.step_bare setup o w
  have h' := t'.step_bare setup o w'
  rw [← htask, ← hworld] at h'
  exact ⟨h.task.symm.trans h'.task, h.world.symm.trans h'.world⟩

/-- **In two such worlds a request goes through the same stages.** -/
theorem after_congr (setup : Setup) (htask : t.bare = t'.bare) (hworld : w.bare = w'.bare)
    (outside : Nat → Outside) (n : Nat) :
    (t.after setup outside w n).1.bare = (t'.after setup outside w' n).1.bare ∧
      (t.after setup outside w n).2.bare = (t'.after setup outside w' n).2.bare := by
  induction n with
  | zero => exact ⟨htask, hworld⟩
  | succ n ih => exact step_congr ih.1 ih.2

theorem answer?_bare (t : Task) : t.bare.answer? = t.answer?.map Answer.bare := by
  cases t <;> rfl

/-- The response to a request, if it has an answer. -/
def response? (t : Task) : Option Response := t.answer?.map Response.ofAnswer

/-- What a session begins with, if the request is for a stream and is granted. -/
def opened? (t : Task) : Option (MachineId × Snapshot) :=
  match t.answer? with
  | some (.stream id snapshot) => some (id, snapshot)
  | _ => none

/-- Tasks whose answers make the same response have the same response. -/
theorem response?_of_answer? {f : Answer → Answer} (h : t'.answer? = t.answer?.map f)
    (hf : ∀ answer, Response.ofAnswer (f answer) = Response.ofAnswer answer) :
    t'.response? = t.response? := by
  unfold response?
  rw [h, Option.map_map]
  congr 1
  funext answer
  exact hf answer

theorem response?_bare (t : Task) : t.bare.response? = t.response? :=
  response?_of_answer? t.answer?_bare Response.ofAnswer_bare

theorem opened?_bare (t : Task) : t.bare.opened? = t.opened? := by
  cases t with
  | answered answer => cases answer <;> rfl
  | _ => rfl

end Task

end Api

/-! ## Sessions -/

namespace Session

/-- **A step of a session does not hang on the inputs in the tables.** -/
theorem step_bare (s : Session) (db : Database) (hub : Hub) (fails : Bool) :
    s.step db.bare hub fails = s.step db hub fails := by
  unfold step
  simp only [Database.snapshot_bare, Database.entriesAfter_bare]

/-- **What a viewer is sent does not hang on the inputs in the tables.** -/
theorem advance_bare (s : Session) (db : Database) (hub : Hub) (faults : FaultPlan) :
    s.advance db.bare hub faults = s.advance db hub faults := by
  induction s, hub, faults using Session.advance.induct db with
  | case1 s hub faults hresting =>
    rw [advance, dif_pos hresting, advance, dif_pos hresting]
  | case2 s hub faults hresting fails faults' hread after ih =>
    rw [advance, dif_neg hresting, advance, dif_neg hresting, hread]
    simp only [step_bare]
    exact ih

end Session

namespace Api

/--
**Nobody sees the inputs of a machine.**

* Two runs for one machine, with inputs that both have an access key or both have none, end with the
  same status and make the same writes up to spans of time, whichever of these fail, if no line of
  the tool holds a secret of either and the circumstances are the same up to spans of time. If those
  are the same too, the runs do exactly the same.
* In two worlds that differ in nothing but the inputs of machines and the runs under way, every
  request is answered alike at each of its steps, whatever comes from outside, and leaves such worlds
  again. Every stream begins with the same snapshot, and every session sends the same frames.
-/
theorem inputs_unseen (equipment : Equipment) (setup : Setup) :
    (∀ (machine : MachineId) (address : String) (mode : RunMode) (x x' : Inputs)
        (c c' : Circumstances), x.installsAccessKey = x'.installsAccessKey →
      c.tool.FreeOf x.secrets → c.tool.FreeOf x'.secrets → c.untimed = c'.untimed →
      let run : Run := ⟨machine, address, x, mode⟩
      let run' : Run := ⟨machine, address, x', mode⟩
      run.status equipment c = run'.status equipment c' ∧
      (∀ succeeds succeeds' : Nat → Bool, List.Forall₂ Write.Retimed
        (Script.Action.writes ((run.script equipment c).trace succeeds))
        (Script.Action.writes ((run'.script equipment c').trace succeeds'))) ∧
      (c = c' → run.script equipment c = run'.script equipment c')) ∧
    ∀ w w' : World, w.bare = w'.bare →
      (∀ (request : Request) (newName : String) (t : Task),
        Start.ofRequest request newName = .task t → ∀ (outside : Nat → Outside) (n : Nat),
        (t.after setup outside w n).1.response? = (t.after setup outside w' n).1.response? ∧
        (t.after setup outside w n).1.opened? = (t.after setup outside w' n).1.opened? ∧
        (t.after setup outside w n).2.bare = (t.after setup outside w' n).2.bare) ∧
      ∀ (s : Session) (hub : Hub),
        (∀ fails, s.step w.database hub fails = s.step w'.database hub fails) ∧
        ∀ faults, s.advance w.database hub faults = s.advance w'.database hub faults := by
  refine ⟨?_, fun w w' hworld => ⟨?_, ?_⟩⟩
  · intro machine address mode x x' c c' hkey hfree hfree' htime run run'
    have hbare : run.bare = run'.bare := rfl
    refine ⟨?_, Run.writes_congr hbare hkey hfree hfree' htime, ?_⟩
    · rw [Run.status_congr hbare hfree hfree', Run.status_of_untimed htime]
    · rintro rfl
      exact Run.script_congr hbare hkey hfree hfree'
  · intro request newName t _ outside n
    obtain ⟨htask, hafter⟩ := Task.after_congr (t := t) setup rfl hworld outside n
    refine ⟨?_, ?_, hafter⟩
    · rw [← Task.response?_bare, htask, Task.response?_bare]
    · rw [← Task.opened?_bare, htask, Task.opened?_bare]
  · intro s hub
    have hdatabase : w.database.bare = w'.database.bare := congrArg World.database hworld
    refine ⟨fun fails => ?_, fun faults => ?_⟩
    · rw [← Session.step_bare, hdatabase, Session.step_bare]
    · rw [← Session.advance_bare, hdatabase, Session.advance_bare]

/-! ## Two keys -/

/-- Inputs with a key of one service and the token of a channel. -/
def otherInputs : Inputs :=
  { Inputs.empty with
    openaiKey := some "sk-openai-42"
    channels := [⟨"telegram", some "123:abc", none, none⟩] }

/-- A world with one machine, which is ready and was provisioned with some inputs. -/
def readyWith (x : Inputs) : World :=
  { World.empty with
    database := { Database.empty with
      machines := [{ Database.NewMachine.row ⟨1, "web", "192.0.2.1", "hetzner", x⟩ ⟨0, 0⟩ with
        status := MachineStatus.ready.word }] } }

/-- A request to provision that machine again. -/
def reprovisionRequest : Request :=
  ⟨.post, ⟨"/api/v1/machines/1/reprovision".toList, []⟩, [], [], false⟩

theorem inputs_unseen_readyWith :
    let x := Run.withKey.inputs
    let calmly (_ : Nat) : Outside := .ofFault none (.taking 40)
    let setup : Setup := ⟨.plain, "hetzner", "1.0.0"⟩
    let after (w : World) : Task := ((Task.resetting 1).after setup calmly w 4).1
    x.secrets ≠ otherInputs.secrets ∧
    (x.installsAccessKey = otherInputs.installsAccessKey ∧
      (Circumstances.taking 40).tool.FreeOf x.secrets ∧
      (Circumstances.taking 40).tool.FreeOf otherInputs.secrets ∧
      (Circumstances.taking 40).untimed = (Circumstances.taking 95).untimed) ∧
    (readyWith x).bare = (readyWith otherInputs).bare ∧
    Start.ofRequest reprovisionRequest "db" = .task (.resetting 1) ∧
    (after (readyWith x)).response?.map (·.status) = some 202 ∧
    (after (readyWith x)).response? = (after (readyWith otherInputs)).response? ∧
    List.Forall₂ Write.Retimed
      (Script.Action.writes
        ((Run.script ⟨1, "192.0.2.1", x, .reprovision⟩ .plain (.taking 40)).trace fun _ => true))
      (Script.Action.writes
        ((Run.script ⟨1, "192.0.2.1", otherInputs, .reprovision⟩ .plain (.taking 95)).trace
          fun _ => false)) := by
  intro x calmly setup after
  have hkey : x.installsAccessKey = otherInputs.installsAccessKey := by decide +kernel
  have hfree : (Circumstances.taking 40).tool.FreeOf x.secrets := by
    rintro e ⟨⟩
    decide +kernel
  have hfree' : (Circumstances.taking 40).tool.FreeOf otherInputs.secrets := by
    rintro e ⟨⟩
    decide +kernel
  have htime : (Circumstances.taking 40).untimed = (Circumstances.taking 95).untimed := rfl
  have hworld : (readyWith x).bare = (readyWith otherInputs).bare := rfl
  have hstart : Start.ofRequest reprovisionRequest "db" = .task (.resetting 1) := rfl
  obtain ⟨hruns, hworlds⟩ := inputs_unseen .plain setup
  obtain ⟨-, hwrites, -⟩ :=
    hruns 1 "192.0.2.1" .reprovision x otherInputs _ _ hkey hfree hfree' htime
  obtain ⟨hresponse, -⟩ :=
    (hworlds _ _ hworld).1 reprovisionRequest "db" (.resetting 1) hstart calmly 4
  exact ⟨by decide +kernel, ⟨hkey, hfree, hfree', htime⟩, hworld, hstart, by decide +kernel,
    hresponse, hwrites _ _⟩

end Api

end Provisioner
