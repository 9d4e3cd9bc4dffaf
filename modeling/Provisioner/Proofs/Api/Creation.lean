import Provisioner.Cloud.Hetzner
import Provisioner.Proofs.Api.Course
import Provisioner.Proofs.Api.Exclusion

/-!
# What is left of a creation

To create a machine the provider is asked to make it, and then it is recorded and its run started.
No transaction holds these together. `Creation.Phase` says how far a creation may have come after
some steps, and what is there by then: a machine that the provider has made is never taken back, so
it stays there when a later call of the provider or the recording fails.
-/

namespace Provisioner

/-! ## What the provider tells of a machine -/

namespace Hetzner

variable {config : Config.Hetzner} {name : String} {replies : Nat → TimedReply} {server : Server}

/-- A machine is handed over as the provider tells of it when it is asked for it at last. -/
theorem create_eq_ok (h : (create config name replies).result = .ok server) :
    ∃ id n, (create config name replies).made = some id ∧
      (create config name replies).requests[n]? = some (serverRequest id) ∧
      fetched (replies n) = .ok server := by
  unfold create at h ⊢
  cases hread : (replies 0).reply.read readCreationAnswer with
  | error failure => simp [hread] at h
  | ok answer =>
    obtain ⟨info, action⟩ := answer
    simp only [hread] at h ⊢
    cases hwaited : (poll replies 1 0 action).result with
    | error failure => simp [hwaited] at h
    | ok _ =>
      simp only [hwaited] at h ⊢
      exact ⟨info.id, _, rfl, by simp, h⟩

end Hetzner

namespace Api

open Database

/-! ## The row of a new machine -/

/-- A row tells of a machine whose run has not ended. -/
structure Shows (server : Server) (m : Machine) : Prop where
  id : m.id = server.id
  name : m.name = server.name
  address : m.address = server.address
  status : m.status = MachineStatus.provisioning.word

/-- One row was added to the machines, for one that was not there. -/
structure Recorded (server : Server) (db db' : Database) : Prop where
  new : ¬db.knows server.id = true
  row : ∃ m, db'.machines = db.machines ++ [m] ∧ Shows server m

namespace Recorded

variable {server : Server} {db db' : Database}

/-- Other columns of the new row may change. -/
theorem update (h : Recorded server db db') {f : Machine → Machine}
    (hf : ∀ m, Shows server m → Shows server (f m)) :
    Recorded server db (db'.update server.id f) := by
  obtain ⟨m, hm, hshows⟩ := h.row
  have hold : ∀ old ∈ db.machines, ¬(old.id == server.id) = true := by
    intro old hold hid
    exact h.new (knows_iff.mpr ⟨old, hold, beq_iff_eq.mp hid⟩)
  obtain ⟨hid, hname, haddress, hstatus⟩ := hf m hshows
  refine ⟨h.new, { f m with updatedAt := db'.now }, ?_, hid, hname, haddress, hstatus⟩
  show db'.machines.map _ = _
  rw [hm, List.map_append, List.map_singleton, if_pos (beq_iff_eq.mpr hshows.id)]
  congr 1
  refine (List.map_congr_left fun old h => ?_).trans (List.map_id _)
  rw [if_neg (hold old h)]
  rfl

/-- What is noted before the end of a run leaves the new row as it is told of. -/
theorem perform (h : Recorded server db db') {call : Write} (hcall : call.isProgress = true) :
    Recorded server db (db'.perform server.id call).2 := by
  cases call with
  | append line =>
    refine ⟨h.new, ?_⟩
    have hsame : (db'.append server.id line).2.machines = db'.machines := by
      unfold append
      split <;> rfl
    show ∃ m, (db'.append server.id line).2.machines = _ ∧ _
    rw [hsame]
    exact h.row
  | setExtractedOutput value => exact h.update fun _ hm => ⟨hm.id, hm.name, hm.address, hm.status⟩
  | setCredentialRemoved removed =>
    exact h.update fun _ hm => ⟨hm.id, hm.name, hm.address, hm.status⟩
  | clearLog => cases hcall
  | setStatus status => cases hcall

end Recorded

/-! ## The course of a creation -/

namespace Creation

/-- What comes of asking for a machine, by the replies; `unseen` is made without being told of. -/
def ofReport (report : Hetzner.Report Server) (unseen : Option MachineId) : Creation :=
  ⟨report.result, report.made.or unseen⟩

/-- What comes from outside into the n-th step of a creation. -/
def outside (creation : Creation) (faults : Nat → Option DatabaseFailure) (run : Circumstances)
    (n : Nat) : Outside := ⟨faults n, creation, ⟨.ok (), false⟩, run⟩

/-- The world with what the provider has made. -/
def left (creation : Creation) (w : World) : World :=
  { w with servers := w.servers ++ creation.made.toList }

/-- The provider hands over a machine, and it can be recorded. -/
def Granted (creation : Creation) (faults : Nat → Option DatabaseFailure) (w : World)
    (server : Server) : Prop :=
  creation.result = .ok server ∧ faults 1 = none ∧ ¬w.database.knows server.id = true

end Creation

namespace Task

section Steps

variable {setup : Setup} {o : Outside} {w : World} {name : String} {inputs : Inputs}
  {server : Server}

theorem step_creating_of_error {failure : ProviderFailure}
    (h : o.creation.result = .error failure) :
    (creating name inputs).step setup o w = (fail (.provider failure), o.creation.left w) := by
  simp only [step, h, Creation.left]

theorem step_creating_of_ok (h : o.creation.result = .ok server) :
    (creating name inputs).step setup o w = (.recording server inputs, o.creation.left w) := by
  simp only [step, h, Creation.left]

theorem step_recording_of_fault {failure : DatabaseFailure} (h : o.fault = some failure) :
    (recording server inputs).step setup o w = (fail (.database failure), w) := by
  simp only [step, statement, h]

theorem step_recording_of_knows (h : o.fault = none) (hknows : w.database.knows server.id = true) :
    (recording server inputs).step setup o w = (fail (.database duplicateMachine), w) := by
  simp only [step, statement, h, Database.insert, hknows, if_true]

/-- A machine that is not there yet is recorded. -/
theorem step_recording_of_new (h : o.fault = none)
    (hnew : ¬w.database.knows server.id = true) :
    ∃ row db, Shows server row ∧ Recorded server w.database db ∧
      (recording server inputs).step setup o w =
        (.announcing row inputs (announcement row), { w with database := db }) := by
  simp only [step, statement, h, Database.insert, if_neg hnew]
  exact ⟨_, _, ⟨rfl, rfl, rfl, rfl⟩, ⟨hnew, _, rfl, rfl, rfl, rfl, rfl⟩, rfl⟩

/-- A line about a new machine is noted, and the request goes on whatever becomes of it. -/
theorem step_announcing_write (setup : Setup) (o : Outside) (row : Machine) (inputs : Inputs)
    (call : Write) (next : Bool → Script) (w : World) :
    (announcing row inputs (.write call next)).step setup o w =
      (.announcing row inputs (next (w.write row.id call o.fault).1.isOk),
        (w.write row.id call o.fault).2) := rfl

end Steps

end Task

namespace Creation

section Phases

variable (setup : Setup) (creation : Creation) (faults : Nat → Option DatabaseFailure)
  (run : Circumstances) (name : String) (inputs : Inputs) (w : World)

/-- How far a creation that began in the world `w` has come after some steps. -/
inductive Phase : Nat → Task × World → Prop where
  | asking : Phase 0 (.creating name inputs, w)
  | recording {server : Server} (hresult : creation.result = .ok server) :
      Phase 1 (.recording server inputs, creation.left w)
  | announcing {n : Nat} {server : Server} {row : Machine} {script : Script} {db : Database}
      {hub : Hub} (hgranted : Granted creation faults w server) (hrow : Shows server row)
      (hrecorded : Recorded server w.database db) (hscript : script.Casual) :
      Phase n (.announcing row inputs script, { creation.left w with database := db, hub })
  | starting {n : Nat} {server : Server} {row : Machine} {db : Database} {hub : Hub}
      (hgranted : Granted creation faults w server) (hrow : Shows server row)
      (hrecorded : Recorded server w.database db) :
      Phase n (.starting row (Task.firstRun row inputs),
        { creation.left w with database := db, hub })
  | accepted {n : Nat} {server : Server} {row : Machine} {db : Database} {hub : Hub}
      (hgranted : Granted creation faults w server) (hrow : Shows server row)
      (hrecorded : Recorded server w.database db) :
      Phase n (.answered (.accepted row),
        World.start { creation.left w with database := db, hub } (Task.firstRun row inputs)
          ((Task.firstRun row inputs).script setup.equipment run))
  | failed {n : Nat} (failure : Failure) (hgranted : ∀ server, ¬Granted creation faults w server) :
      Phase n (.answered (.failed failure), creation.left w)

variable {setup creation faults run name inputs w}

/-- **What a step of a creation leads to.** -/
theorem Phase.step {n : Nat} {t : Task} {w' : World}
    (h : Phase setup creation faults run name inputs w n (t, w')) :
    Phase setup creation faults run name inputs w (n + 1)
      (t.step setup (creation.outside faults run n) w') := by
  cases h with
  | asking =>
    cases hresult : creation.result with
    | error failure =>
      rw [Task.step_creating_of_error hresult]
      refine .failed _ ?_
      rintro server ⟨hok, -, -⟩
      rw [hresult] at hok
      cases hok
    | ok server =>
      rw [Task.step_creating_of_ok hresult]
      exact .recording hresult
  | @recording server hresult =>
    have hfaults : (creation.outside faults run 1).fault = faults 1 := rfl
    cases hfault : faults 1 with
    | some failure =>
      rw [Task.step_recording_of_fault (hfaults.trans hfault)]
      refine .failed _ ?_
      rintro _ ⟨-, hnone, -⟩
      rw [hfault] at hnone
      cases hnone
    | none =>
      by_cases hknows : w.database.knows server.id = true
      · rw [Task.step_recording_of_knows (w := creation.left w) (hfaults.trans hfault) hknows]
        refine .failed _ ?_
        rintro other ⟨hok, -, hnew⟩
        rw [hresult] at hok
        cases hok
        exact hnew hknows
      · obtain ⟨row, db, hrow, hrecorded, hstep⟩ := Task.step_recording_of_new
          (w := creation.left w) (hfaults.trans hfault) hknows
        rw [hstep]
        exact .announcing ⟨hresult, hfault, hknows⟩ hrow hrecorded (Script.casual_logLines _ .done)
  | announcing hgranted hrow hrecorded hscript =>
    cases hscript with
    | done => exact .starting hgranted hrow hrecorded
    | notify hnext => exact .announcing hgranted hrow hrecorded hnext
    | write hcall hnext =>
      rw [Task.step_announcing_write, hrow.id]
      unfold World.write
      cases (creation.outside faults run n).fault with
      | some failure => exact .announcing hgranted hrow hrecorded (hnext false)
      | none => exact .announcing hgranted hrow (hrecorded.perform hcall) (hnext _)
  | starting hgranted hrow hrecorded => exact .accepted hgranted hrow hrecorded
  | accepted hgranted hrow hrecorded => exact .accepted hgranted hrow hrecorded
  | failed failure hgranted => exact .failed failure hgranted

theorem phase_after (n : Nat) : Phase setup creation faults run name inputs w n
    ((Task.creating name inputs).after setup (creation.outside faults run) w n) :=
  Task.after_induction (P := Phase setup creation faults run name inputs w) .asking
    (fun _ _ _ => Phase.step) n

/-- No run is started before the answer. -/
theorem Phase.runs_eq {n : Nat} {t : Task} {w' : World}
    (h : Phase setup creation faults run name inputs w n (t, w')) (ht : t.answer? = none) :
    w'.runs = w.runs := by
  cases h with
  | asking | recording | announcing | starting => rfl
  | accepted | failed => cases ht

end Phases

end Creation

/-! ## What a request for a machine comes to -/

/-- A failure is answered as one. -/
theorem Failure.le_status (failure : Failure) : 400 ≤ (Response.ofFailure failure).status := by
  show 400 ≤ failure.rejection.status
  cases failure with
  | machine cause => cases cause <;> simp [rejection, ofMachine, internal]
  | database cause =>
    cases cause with
    | rowNotFound => simp [rejection, ofDatabase]
    | refused code constraint message =>
      simp only [rejection, ofDatabase]
      split <;> simp [internal]
    | other reason => simp [rejection, ofDatabase, internal]
  | store cause => simp [rejection, internal]
  | provider cause => cases cause <;> simp [rejection, ofProvider]
  | badRequest reason => simp [rejection]

/-- A request for a machine is refused at once, or the provider is asked for one. -/
theorem Start.create_cases (request : Request) (generated : String) :
    (∃ response : Response, create request generated = .response response ∧
      400 ≤ response.status) ∨
    (∃ failure, create request generated = .task (.fail failure)) ∨
    ∃ name inputs, create request generated = .task (.creating name inputs) := by
  unfold create
  split
  · exact Or.inl ⟨_, rfl, by decide⟩
  split
  · exact Or.inl ⟨_, rfl, by decide⟩
  split
  · rename_i wanted _
    unfold Task.ofCreateRequest
    split
    · exact Or.inr (Or.inr ⟨_, _, rfl⟩)
    split
    · exact Or.inr (Or.inr ⟨_, _, rfl⟩)
    · exact Or.inr (Or.inl ⟨_, rfl⟩)
  · rename_i e _
    cases e <;> exact Or.inl ⟨_, rfl, by decide⟩

/-- The machine that a request is to create. -/
def Start.created? : Start → Option (String × Inputs)
  | .task (.creating name inputs) => some (name, inputs)
  | _ => none

theorem Start.eq_of_created? {start : Start} {name : String} {inputs : Inputs}
    (h : start.created? = some (name, inputs)) : start = .task (.creating name inputs) := by
  unfold created? at h
  split at h
  · cases h
    rfl
  · cases h

namespace Creation

/-- The machine is there at the provider, its row tells of it, and its run is under way. -/
structure Established (setup : Setup) (run : Circumstances) (inputs : Inputs) (id : MachineId)
    (server : Server) (w w' : World) : Prop where
  servers : w'.servers = w.servers ++ [id]
  row : Recorded server w.database w'.database
  runs : w'.runs = w.runs ++ [ActiveRun.mk ⟨server.id, server.address, inputs, .initial⟩
    (Run.script ⟨server.id, server.address, inputs, .initial⟩ setup.equipment run)]

/--
**A creation is carried out, or leaves nothing but what the provider has made.** A request that is
refused does nothing. Otherwise the provider is asked for a machine. If it hands one over, as it
tells of it when it is asked for it at last, and the machine can be recorded, then the answer is 202
and there is one more machine at the provider, one more row, which tells of it, and one more run. In
all other cases the request fails, and there is no new row and no new run; a machine that the
provider has made all the same stays there. Before the answer no run is started.
-/
theorem created_or_left_over (setup : Setup) (config : Config.Hetzner)
    (replies : Nat → Hetzner.TimedReply) (unseen : Option MachineId)
    (faults : Nat → Option DatabaseFailure) (run : Circumstances) (request : Request)
    (generated : String) (w : World) :
    (∃ response : Response, Start.create request generated = .response response ∧
      400 ≤ response.status) ∨
    (∃ failure, Start.create request generated = .task (.fail failure) ∧
      400 ≤ (Response.ofFailure failure).status) ∨
    ∃ name inputs, Start.create request generated = .task (.creating name inputs) ∧
      let report := Hetzner.create config name replies
      let creation := ofReport report unseen
      let course := (Task.creating name inputs).after setup (creation.outside faults run) w
      (∀ n, (course n).1.answer? = none → (course n).2.runs = w.runs) ∧
      ∃ n answer w', course n = (.answered answer, w') ∧
        ((∃ server id k, Granted creation faults w server ∧
            report.made = some id ∧ report.requests[k]? = some (Hetzner.serverRequest id) ∧
            Hetzner.fetched (replies k) = .ok server ∧
            (Response.ofAnswer answer).status = 202 ∧
            Established setup run inputs id server w w') ∨
          ((∀ server, ¬Granted creation faults w server) ∧
            400 ≤ (Response.ofAnswer answer).status ∧
            w' = { w with servers := w.servers ++ (report.made.or unseen).toList })) := by
  rcases Start.create_cases request generated with hrefused | ⟨failure, hfailed⟩ | hasked
  · exact Or.inl hrefused
  · exact Or.inr (Or.inl ⟨failure, hfailed, failure.le_status⟩)
  obtain ⟨name, inputs, hasked⟩ := hasked
  refine Or.inr (Or.inr ⟨name, inputs, hasked, ?_⟩)
  intro report creation course
  have hphase : ∀ n, Phase setup creation faults run name inputs w n (course n) := phase_after
  refine ⟨fun n hnone => (hphase n).runs_eq hnone, ?_⟩
  obtain ⟨n, answer, w', hanswered⟩ :=
    Task.exists_answered setup (creation.outside faults run) (.creating name inputs) w
  refine ⟨n, answer, w', hanswered, ?_⟩
  have hlast := hphase n
  rw [show course n = _ from hanswered] at hlast
  cases hlast with
  | @accepted _ server row db hub hgranted hrow hrecorded =>
    obtain ⟨id, k, hmade, hrequest, hfetched⟩ := Hetzner.create_eq_ok hgranted.1
    refine Or.inl ⟨server, id, k, hgranted, hmade, hrequest, hfetched, rfl, ?_, hrecorded, ?_⟩
    · show w.servers ++ (report.made.or unseen).toList = w.servers ++ [id]
      rw [hmade]; rfl
    · show w.runs ++ [_] = _
      unfold Task.firstRun
      rw [hrow.id, hrow.address]
  | failed failure hgranted => exact Or.inr ⟨hgranted, failure.le_status, rfl⟩

/-! ## A machine that is not recorded -/

/-- A request for a machine of a certain name. -/
def webRequest : Request :=
  ⟨.post, ⟨"/api/v1/machines".toList, []⟩, [.ofText "content-type" "application/json"],
    "\x7b\"name\": \"web\"\x7d".toUTF8.toList, false⟩

def plainConfig : Config.Hetzner :=
  ⟨"token", 1, "cpx11", "ubuntu-24.04", "fsn1", "https://api.hetzner.cloud/v1"⟩

/-- The provider makes the machine 2 at once, and tells of its address when it is asked again. -/
def webReplies (n : Nat) : Hetzner.TimedReply :=
  let text := if n = 0 then
      "\x7b\"server\":\x7b\"id\":2,\"name\":\"web\",\"public_net\":\x7b\x7d\x7d," ++
        "\"action\":\x7b\"id\":7,\"status\":\"success\"\x7d\x7d"
    else
      "\x7b\"server\":\x7b\"id\":2,\"name\":\"web\",\"public_net\":\x7b\"ipv4\":" ++
        "\x7b\"ip\":\"192.0.2.2\"\x7d\x7d\x7d\x7d"
  ⟨.answer 200 text.toUTF8.toList, 50⟩

/-- The machine `web` as the provider hands it over. -/
def webCreation : Creation := ofReport (Hetzner.create plainConfig "web" webReplies) none

theorem webCreation_eq : webCreation = ⟨.ok ⟨2, "web", "192.0.2.2"⟩, some 2⟩ := by
  have hresult : webCreation.result.toOption = some ⟨2, "web", "192.0.2.2"⟩ := by decide +kernel
  have hmade : webCreation.made = some 2 := by decide +kernel
  cases h : webCreation with
  | mk result made =>
    rw [h] at hresult hmade
    cases result with
    | error failure => cases hresult
    | ok server =>
      cases hresult
      cases hmade
      rfl

/-- No connection is left when the machine is to be recorded. -/
def lostAtInsert (n : Nat) : Option DatabaseFailure := if n = 1 then some .noConnection else none

/-- The creation of `web` in an empty world, when some statements fail. -/
def webCourse (faults : Nat → Option DatabaseFailure) : Nat → Task × World :=
  (Task.creating "web" .empty).after Service.plainSetup
    (webCreation.outside faults Service.calmOutside.run) .empty

/--
The machine cannot be recorded: the request fails, there is no row and no run, and the machine is at
the provider. If nothing fails but the request is cut off after two steps, its row is there as well.
-/
theorem webCourse_lostAtInsert :
    Start.create webRequest "db" = .task (.creating "web" .empty) ∧
    webCreation.result = .ok ⟨2, "web", "192.0.2.2"⟩ ∧
    (webCourse lostAtInsert 2).1 = .fail (.database .noConnection) ∧
    (Response.ofAnswer (.failed (.database .noConnection))).status = 500 ∧
    (webCourse lostAtInsert 2).2.database.machines.length = 0 ∧
    (webCourse lostAtInsert 2).2.runs.length = 0 ∧
    World.empty.servers = [] ∧ (webCourse lostAtInsert 2).2.servers = [2] ∧
    (webCourse (fun _ => none) 2).1.answer?.isNone = true ∧
    (webCourse (fun _ => none) 2).2.database.machines.length = 1 ∧
    (webCourse (fun _ => none) 2).2.runs.length = 0 ∧
    (webCourse (fun _ => none) 2).2.servers = [2] := by
  have hasked : Start.create webRequest "db" = .task (.creating "web" .empty) :=
    Start.eq_of_created? (by decide +kernel)
  unfold webCourse
  rw [webCreation_eq]
  exact ⟨hasked, rfl, rfl, rfl, by decide +kernel, by decide +kernel, rfl, by decide +kernel,
    by decide +kernel, by decide +kernel, by decide +kernel, by decide +kernel⟩

end Creation

end Api

end Provisioner
