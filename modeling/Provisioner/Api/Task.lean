import Provisioner.Api.CreateRequest
import Provisioner.Api.Failure
import Provisioner.World

/-!
# Carrying out requests

A request that was understood becomes a *task*, which is carried out in steps; each step makes one
statement of the database, one call of the hub or one call of the provider. What comes from outside
into a step is given as `Outside`. A task ends in an `Answer`.

* Creating: make the machine at the provider, record it, log two lines, start its run.
* Reprovisioning: reset the row of a machine in a terminal status, clear its log, wake its viewers,
  start its run. If the log cannot be cleared, the machine is left failed, so that the caller can
  try again.
* Deleting: delete the machine at the provider, then its row and log, and then its generation at the
  hub.
-/

namespace Provisioner.Api

/-- What comes of asking the provider for a machine. -/
structure Creation where
  result : Except ProviderFailure Server
  /-- The machine that the provider has made, which may be there even if the request failed. -/
  made : Option MachineId

/-- What comes of asking the provider to delete a machine that it has. -/
structure Deletion where
  result : Except ProviderFailure Unit
  /-- The machine is deleted even if the request failed. -/
  unseen : Bool

/-- Whether the provider deletes the machine. -/
def Deletion.takesEffect (deletion : Deletion) : Bool := deletion.result.isOk || deletion.unseen

/-- What comes from outside into a step. -/
structure Outside where
  /-- Why the statement of this step fails, if it does. -/
  fault : Option DatabaseFailure
  /-- What comes of asking the provider for a machine. -/
  creation : Creation
  /-- What comes of asking the provider to delete a machine. -/
  deletion : Deletion
  /-- What will happen during a run that is started. -/
  run : Circumstances

/-- What comes from outside into a step that does not call the provider. -/
def Outside.ofFault (fault : Option DatabaseFailure) (run : Circumstances) : Outside :=
  ⟨fault, ⟨.error (.noAddress 0), none⟩, ⟨.ok (), false⟩, run⟩

/-- How the service is set up for requests. -/
structure Setup where
  equipment : Equipment
  /-- The name of the provider. -/
  provider : String
  /-- The version of the service. -/
  version : String

/-- The state of the service, for those who route requests to it. -/
structure Health where
  version : String
  databaseHealthy : Bool
  /-- How many machines have viewers. -/
  streamingMachines : Nat
  draining : Bool
deriving DecidableEq, Repr

/-- What a task comes to. -/
inductive Answer where
  | failed (failure : Failure)
  /-- A run was started for the machine. -/
  | accepted (machine : Machine)
  | machines (list : List Machine)
  | machine (machine : Machine)
  | log (entries : List LogEntry)
  | deleted (id : MachineId)
  | health (report : Health)
  /-- A session begins. -/
  | stream (id : MachineId) (snapshot : Snapshot)

/-- A request that is being carried out. -/
inductive Task where
  /-- The provider is to make a machine. -/
  | creating (name : String) (inputs : Inputs)
  /-- The machine is to be recorded. -/
  | recording (server : Server) (inputs : Inputs)
  /-- The first lines are to be logged. -/
  | announcing (row : Machine) (inputs : Inputs) (script : Script)
  /-- The run is to be started. -/
  | starting (row : Machine) (run : Run)
  /-- The row is to be reset for a reprovision. -/
  | resetting (id : MachineId)
  /-- The row could not be reset, and the reason is to be found. -/
  | refusing (id : MachineId)
  /-- The old log is to be cleared. -/
  | clearing (row : Machine)
  /-- The viewers are to be woken after that. -/
  | waking (row : Machine)
  /-- The log could not be cleared, and the machine is to be marked as failed. -/
  | repairing (id : MachineId) (failure : StoreFailure)
  /-- The viewers are to be woken after that. -/
  | wakingFailed (id : MachineId) (failure : StoreFailure)
  /-- The machine to be deleted is to be found. -/
  | finding (id : MachineId)
  /-- The provider is to delete it. -/
  | dismissing (id : MachineId)
  /-- Its row is to be deleted. -/
  | erasing (id : MachineId)
  /-- Its generation is to be removed. -/
  | forgetting (id : MachineId)
  | listing
  | showing (id : MachineId)
  /-- The machine of a log is to be found. -/
  | findingLog (id : MachineId) (after : Int)
  | readingLog (id : MachineId) (after : Int)
  /-- The snapshot for a session is to be read. -/
  | opening (id : MachineId)
  | checkingHealth
  | answered (answer : Answer)

namespace Task

/-- The task has failed. -/
def fail (failure : Failure) : Task := .answered (.failed failure)

/-- The failure of a request for a machine that is not there. -/
def noMachine (id : MachineId) : Failure := .machine (.notFound "Machine" id)

/-- The failure of a reprovision whose machine became free in the meantime. -/
def statusChanged : Failure := .machine (.conflict "Machine status changed, retry the request")

/-- Makes a statement unless it fails. -/
def statement (fault : Option DatabaseFailure) (w : World) (next : Task × World) : Task × World :=
  match fault with
  | some failure => (fail (.database failure), w)
  | none => next

/-- Goes on with a machine if it is there. -/
def withMachine (w : World) (id : MachineId) (next : Machine → Task) : Task :=
  match w.database.find? id with
  | some m => next m
  | none => fail (noMachine id)

/-- The lines about a new machine. -/
def announcement (row : Machine) : Script :=
  Script.logLines ["Creating server...", s!"Server created: {row.name} ({row.address})"] .done

/-- The run of a new machine. -/
def firstRun (row : Machine) (inputs : Inputs) : Run := ⟨row.id, row.address, inputs, .initial⟩

/-- The run of a machine that is provisioned again. -/
def nextRun (row : Machine) : Run := ⟨row.id, row.address, row.inputs.inputs, .reprovision⟩

/-- Why a row could not be reset. -/
def refusal (m : Machine) : Failure :=
  match m.readStatus with
  | .error failure => .machine failure
  | .ok status =>
    match status.mayReprovision with
    | .error failure => .machine failure
    | .ok () => statusChanged

/--
The provider is asked to delete a machine. The request for one that it does not have fails; one that
it has may be deleted even if the request fails.
-/
def dismiss (w : World) (id : MachineId) (deletion : Deletion) :
    Except ProviderFailure Unit × World :=
  let result :=
    if w.servers.contains id then deletion.result
    else deletion.result.bind fun _ => .error (.refused 404 "")
  let servers := if deletion.takesEffect then w.servers.filter (· ≠ id) else w.servers
  (result, { w with servers })

/-- One step of a task. -/
def step (setup : Setup) (o : Outside) (t : Task) (w : World) : Task × World :=
  match t with
  | .creating _ inputs =>
    let w := { w with servers := w.servers ++ o.creation.made.toList }
    match o.creation.result with
    | .error failure => (fail (.provider failure), w)
    | .ok server => (.recording server inputs, w)
  | .recording server inputs =>
    statement o.fault w <|
      match w.database.insert ⟨server.id, server.name, server.address, setup.provider, inputs⟩ with
      | .error failure => (fail (.database failure), w)
      | .ok (row, database) =>
        (.announcing row inputs (announcement row), { w with database })
  | .announcing row inputs script =>
    match script with
    | .done => (.starting row (firstRun row inputs), w)
    | script =>
      let (script, w) := w.scriptStep row.id o.fault script
      (.announcing row inputs script, w)
  | .starting row run => (.answered (.accepted row), w.start run (run.script setup.equipment o.run))
  | .resetting id =>
    statement o.fault w <|
      let (row, database) := w.database.beginReprovision id
      match row with
      | some row => (.clearing row, { w with database })
      | none => (.refusing id, { w with database })
  | .refusing id => statement o.fault w (withMachine w id (fun m => fail (refusal m)), w)
  | .clearing row =>
    let (result, w) := w.write row.id .clearLog o.fault
    match result with
    | .error failure => (.repairing row.id (.write Write.clearLog.name failure.message), w)
    | .ok () => (.waking row, w)
  | .waking row => (.starting row (nextRun row), w.notify row.id)
  | .repairing id failure =>
    let (result, w) := w.write id (.setStatus .failed) o.fault
    match result with
    | .error fault => (fail (.database fault), w)
    | .ok () => (.wakingFailed id failure, w)
  | .wakingFailed id failure => (fail (.store failure), w.notify id)
  | .finding id => statement o.fault w (withMachine w id (fun _ => .dismissing id), w)
  | .dismissing id =>
    let (result, w) := dismiss w id o.deletion
    match result with
    | .error failure => (fail (.provider failure), w)
    | .ok () => (.erasing id, w)
  | .erasing id =>
    statement o.fault w (.forgetting id, { w with database := (w.database.erase id).2 })
  | .forgetting id => (.answered (.deleted id), { w with hub := w.hub.remove id })
  | .listing => statement o.fault w (.answered (.machines w.database.list), w)
  | .showing id => statement o.fault w (withMachine w id (fun m => .answered (.machine m)), w)
  | .findingLog id after =>
    statement o.fault w (withMachine w id (fun _ => .readingLog id after), w)
  | .readingLog id after =>
    statement o.fault w (.answered (.log (w.database.entriesAfter id (max after 0))), w)
  | .opening id =>
    match o.fault with
    | some failure => (fail (.store (.read Read.snapshot.name failure.message)), w)
    | none =>
      match w.database.snapshot id with
      | .error failure => (fail (.store (.read Read.snapshot.name failure.message)), w)
      | .ok none => (fail (noMachine id), w)
      | .ok (some snapshot) => (.answered (.stream id snapshot), w)
  | .checkingHealth =>
    (.answered (.health ⟨setup.version, o.fault.isNone, w.hub.size, w.draining⟩), w)
  | .answered answer => (.answered answer, w)

/-- Asking the provider to delete a machine changes nothing but the machines that it has. -/
theorem step_dismissing_cases (setup : Setup) (o : Outside) (id : MachineId) (w : World) :
    ∃ servers,
      (∃ failure, (dismissing id).step setup o w = (fail (.provider failure), { w with servers })) ∨
      (dismissing id).step setup o w = (.erasing id, { w with servers }) := by
  refine ⟨(dismiss w id o.deletion).2.servers, ?_⟩
  cases hresult : (dismiss w id o.deletion).1 with
  | error failure => exact Or.inl ⟨failure, by simp only [step, hresult]; rfl⟩
  | ok _ => exact Or.inr (by simp only [step, hresult]; rfl)

/-- The answer of a task that has come to its end. -/
def answer? : Task → Option Answer
  | .answered answer => some answer
  | _ => none

/-- The task that a request for a machine becomes; it fails at once if the name is no name. -/
def ofCreateRequest (request : CreateRequest) (generatedName : String) : Task :=
  match request.wantedName with
  | none => .creating generatedName request.inputs
  | some name =>
    match MachineName.check name with
    | .ok () => .creating name request.inputs
    | .error failure => fail (.machine failure)

end Task

end Provisioner.Api
