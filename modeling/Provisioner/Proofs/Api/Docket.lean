import Provisioner.Proofs.Api.Exclusion
import Provisioner.Proofs.Api.Stroke
import Provisioner.Proofs.Inputs.Stored
import Provisioner.Proofs.Pointwise
import Provisioner.Proofs.Store.Retention

/-!
# A machine keeps the inputs that it was created with

The inputs of a machine come from the body of the request that created it, and each later run is to
install the same. Here the service is kept with a *docket* of these orders: beside each request what
it asks for, beside each machine what it was created for, and beside each run what it was started
for. A request that sets a machine back takes over the machine's order.

* `Task.InputStep` says what a step of a request does to the inputs in the tables and in its hands.
* `Docket.Faithful` holds after every history: rows, requests and runs have the inputs on the docket.

Nothing is assumed about the history. Requests and runs go on in any order, are dropped, and fail;
writes of any kind are made for any machine; and interrupted runs are ended at any time, as they are
when the process starts again, after which the old requests and runs make no step.
-/

namespace Provisioner

namespace Api

open Database

/-- The inputs in the body of a request, if it can be read. -/
def Request.inputs? (r : Request) : Option Inputs :=
  (CreateRequest.ofBody r.body).toOption.map (·.inputs)

/-! ## Steps of requests -/

namespace Task

/-- The inputs that a request is about to install. -/
def toInstall? : Task → Option Inputs
  | .creating _ inputs | .recording _ inputs | .announcing _ inputs _ => some inputs
  | .clearing row | .waking row => some row.inputs.inputs
  | .starting _ run => some run.inputs
  | _ => none

/-- The machine that a request has recorded by going on to another. -/
def recorded? : Task → Task → Option MachineId
  | .recording _ _, .announcing row _ _ => some row.id
  | _, _ => none

/-- The machine that a request has set back by going on to another. -/
def restarted? : Task → Task → Option MachineId
  | .resetting _, .clearing row => some row.id
  | _, _ => none

/-- All that a step of a request does to inputs. -/
inductive InputStep (w : World) (t t' : Task) (w' : World) : Prop where
  | passes (hrecorded : t.recorded? t' = none) (hrestarted : t.restarted? t' = none)
      (hstarts : t.starts = false) (htask : ∀ x ∈ t'.toInstall?, t.toInstall? = some x)
      (hrows : w.database.KeepsInputs w'.database) (hruns : w'.runs = w.runs)
  | recorded (id : MachineId) (x : Inputs) (hrecorded : t.recorded? t' = some id)
      (hrestarted : t.restarted? t' = none) (hstarts : t.starts = false)
      (htask : t.toInstall? = some x) (htask' : t'.toInstall? = some x)
      (hrows : ∀ other m', w'.database.find? other = some m' →
        (other = id ∧ m'.inputs = .ofInputs x) ∨
          (other ≠ id ∧ w.database.find? other = some m'))
      (hruns : w'.runs = w.runs)
  | restarted (id : MachineId) (m : Machine) (hrecorded : t.recorded? t' = none)
      (hrestarted : t.restarted? t' = some id) (hstarts : t.starts = false)
      (hrow : w.database.find? id = some m) (htask' : t'.toInstall? = some m.inputs.inputs)
      (hrows : w.database.KeepsInputs w'.database) (hruns : w'.runs = w.runs)
  | started (run : Run) (script : Script) (hrecorded : t.recorded? t' = none)
      (hrestarted : t.restarted? t' = none) (hstarts : t.starts = true)
      (htask : t.toInstall? = some run.inputs) (htask' : t'.toInstall? = none)
      (hworld : w' = w.start run script)

section InputStep

variable {setup : Setup} {o : Outside} {w : World} {t : Task}

/-- A request that only reads. -/
theorem inputStep_of_reads {t' : Task} (hrecorded : t.recorded? t' = none)
    (hrestarted : t.restarted? t' = none) (hstarts : t.starts = false)
    (htask : t'.toInstall? = none) : InputStep w t t' w := by
  refine .passes hrecorded hrestarted hstarts ?_ (.refl _) rfl
  rw [htask]
  exact nofun

theorem inputStep_statement {r : Task × World} (hrecorded : ∀ f, t.recorded? (fail f) = none)
    (hrestarted : ∀ f, t.restarted? (fail f) = none) (hstarts : t.starts = false)
    (h : InputStep w t r.1 r.2) :
    InputStep w t (statement o.fault w r).1 (statement o.fault w r).2 := by
  unfold statement
  split
  · exact inputStep_of_reads (hrecorded _) (hrestarted _) hstarts rfl
  · exact h

theorem toInstall?_withMachine {id : MachineId} {next : Machine → Task}
    (h : ∀ m, (next m).toInstall? = none) : (withMachine w id next).toInstall? = none := by
  unfold withMachine
  split
  · exact h _
  · rfl

theorem inputStep_recording {server : Server} {inputs : Inputs} :
    InputStep w (.recording server inputs) ((recording server inputs).step setup o w).1
      ((recording server inputs).step setup o w).2 := by
  unfold step
  refine inputStep_statement (fun _ => rfl) (fun _ => rfl) rfl ?_
  cases hinsert : w.database.insert
      ⟨server.id, server.name, server.address, setup.provider, inputs⟩ with
  | error failure =>
    simp only
    exact inputStep_of_reads rfl rfl rfl rfl
  | ok result =>
    obtain ⟨row, database⟩ := result
    obtain ⟨hid, -⟩ := insert_spec hinsert
    simp only
    exact .recorded server.id inputs (congrArg some hid) rfl rfl rfl rfl
      (inputs_of_insert hinsert).2 rfl

theorem inputStep_announcing {row : Machine} {inputs : Inputs} {script : Script} :
    InputStep w (.announcing row inputs script) ((announcing row inputs script).step setup o w).1
      ((announcing row inputs script).step setup o w).2 := by
  cases script with
  | done => exact .passes rfl rfl rfl (fun x hx => hx) (.refl _) rfl
  | notify next => exact .passes rfl rfl rfl (fun x hx => hx) (.refl _) rfl
  | write call next =>
    unfold step World.scriptStep World.write
    cases o.fault with
    | some failure => exact .passes rfl rfl rfl (fun x hx => hx) (.refl _) rfl
    | none =>
      exact .passes rfl rfl rfl (fun x hx => hx) (keepsInputs_perform _ row.id call) rfl

theorem inputStep_resetting {id : MachineId} :
    InputStep w (.resetting id) ((resetting id).step setup o w).1
      ((resetting id).step setup o w).2 := by
  unfold step
  refine inputStep_statement (fun _ => rfl) (fun _ => rfl) rfl ?_
  cases hrow : (w.database.beginReprovision id).1 with
  | none =>
    simp only [hrow, beginReprovision_none hrow]
    exact inputStep_of_reads rfl rfl rfl rfl
  | some row =>
    simp only [hrow]
    obtain ⟨m, hm, hid, hinputs⟩ := inputs_of_beginReprovision hrow
    refine .restarted id m rfl (congrArg some hid) rfl hm ?_
      (keepsInputs_beginReprovision w.database id) rfl
    exact congrArg (fun stored => some stored.inputs) hinputs

/-- The log is cleared, or the machine is marked as failed because it could not be. -/
theorem inputStep_clearing {row : Machine} :
    InputStep w (.clearing row) ((clearing row).step setup o w).1
      ((clearing row).step setup o w).2 := by
  unfold step World.write
  cases o.fault with
  | some failure => exact inputStep_of_reads rfl rfl rfl rfl
  | none =>
    exact .passes rfl rfl rfl (fun x hx => hx) (keepsInputs_perform _ row.id .clearLog) rfl

theorem inputStep_repairing {id : MachineId} {failure : StoreFailure} :
    InputStep w (.repairing id failure) ((repairing id failure).step setup o w).1
      ((repairing id failure).step setup o w).2 := by
  unfold step World.write
  cases o.fault with
  | some fault => exact inputStep_of_reads rfl rfl rfl rfl
  | none => exact .passes rfl rfl rfl nofun (keepsInputs_perform _ id (.setStatus .failed)) rfl

/-- **What a step of a request does to inputs.** -/
theorem inputStep_step (setup : Setup) (o : Outside) (w : World) (t : Task) :
    InputStep w t (t.step setup o w).1 (t.step setup o w).2 := by
  cases t with
  | creating name inputs =>
    unfold step
    cases o.creation.result with
    | error failure => exact .passes rfl rfl rfl nofun (.refl _) rfl
    | ok server => exact .passes rfl rfl rfl (fun x hx => hx) (.refl _) rfl
  | recording server inputs => exact inputStep_recording
  | announcing row inputs script => exact inputStep_announcing
  | starting row run => exact .started run _ rfl rfl rfl rfl rfl rfl
  | resetting id => exact inputStep_resetting
  | refusing id =>
    exact inputStep_statement (fun _ => rfl) (fun _ => rfl) rfl
      (inputStep_of_reads rfl rfl rfl (toInstall?_withMachine fun _ => rfl))
  | clearing row => exact inputStep_clearing
  | waking row => exact .passes rfl rfl rfl (fun x hx => hx) (.refl _) rfl
  | repairing id failure => exact inputStep_repairing
  | wakingFailed id failure => exact .passes rfl rfl rfl nofun (.refl _) rfl
  | finding id =>
    exact inputStep_statement (fun _ => rfl) (fun _ => rfl) rfl
      (inputStep_of_reads rfl rfl rfl (toInstall?_withMachine fun _ => rfl))
  | dismissing id =>
    obtain ⟨servers, ⟨failure, hstep⟩ | hstep⟩ := step_dismissing_cases setup o id w
    · rw [hstep]
      exact .passes rfl rfl rfl nofun (.refl _) rfl
    · rw [hstep]
      exact .passes rfl rfl rfl nofun (.refl _) rfl
  | erasing id =>
    exact inputStep_statement (fun _ => rfl) (fun _ => rfl) rfl
      (.passes rfl rfl rfl nofun (keepsInputs_erase _ id) rfl)
  | forgetting id => exact .passes rfl rfl rfl nofun (.refl _) rfl
  | listing =>
    exact inputStep_statement (fun _ => rfl) (fun _ => rfl) rfl
      (inputStep_of_reads rfl rfl rfl rfl)
  | showing id =>
    exact inputStep_statement (fun _ => rfl) (fun _ => rfl) rfl
      (inputStep_of_reads rfl rfl rfl (toInstall?_withMachine fun _ => rfl))
  | findingLog id after =>
    exact inputStep_statement (fun _ => rfl) (fun _ => rfl) rfl
      (inputStep_of_reads rfl rfl rfl (toInstall?_withMachine fun _ => rfl))
  | readingLog id after =>
    exact inputStep_statement (fun _ => rfl) (fun _ => rfl) rfl
      (inputStep_of_reads rfl rfl rfl rfl)
  | opening id =>
    unfold step
    cases o.fault with
    | some failure => exact inputStep_of_reads rfl rfl rfl rfl
    | none =>
      simp only
      split <;> exact inputStep_of_reads rfl rfl rfl rfl
  | checkingHealth => exact inputStep_of_reads rfl rfl rfl rfl
  | answered answer => exact inputStep_of_reads rfl rfl rfl rfl

end InputStep

end Task

/-! ## Requests that arrive -/

/-- A request that is to create a machine hands on the inputs in its body. -/
theorem inputs?_of_create {r : Request} {name : String} {t : Task}
    (h : Start.create r name = .task t) : ∀ x ∈ t.toInstall?, r.inputs? = some x := by
  unfold Start.create at h
  split at h
  · cases h
  split at h
  · cases h
  split at h
  case h_1 wanted hbody =>
    cases h
    have hinputs : r.inputs? = some wanted.inputs := by
      unfold Request.inputs?
      rw [hbody]
      rfl
    rw [hinputs]
    unfold Task.ofCreateRequest
    split
    · exact fun x hx => hx
    split
    · exact fun x hx => hx
    · exact nofun
  case h_2 => cases h

section Arrival

variable {r : Request} {name : String} {raw : List Char} {t : Task}

theorem toInstall?_withId {next : MachineId → Task} (hnext : ∀ id, (next id).toInstall? = none)
    (h : Start.withId raw next = .task t) : t.toInstall? = none := by
  unfold Start.withId at h
  split at h
  · cases h
    exact hnext _
  · cases h

theorem toInstall?_log (h : Start.log r raw = .task t) : t.toInstall? = none := by
  unfold Start.log at h
  split at h
  · cases h
    rfl
  · cases h

theorem toInstall?_stream (h : Start.stream r raw = .task t) : t.toInstall? = none := by
  unfold Start.stream at h
  split at h
  · cases h
  split at h
  · cases h
  split at h
  · cases h
    rfl
  · cases h
    rfl

/-- A request is about to install nothing but what its body asks for. -/
theorem inputs?_of_ofRequest (h : Start.ofRequest r name = .task t) :
    ∀ x ∈ t.toInstall?, r.inputs? = some x := by
  have hnone : t.toInstall? = none → ∀ x ∈ t.toInstall?, r.inputs? = some x := by
    intro ht x hx
    rw [ht] at hx
    cases hx
  unfold Start.ofRequest at h
  split at h
  · cases h
  split at h
  · cases h
  · rename_i endpoint _
    cases endpoint with
    | create => exact inputs?_of_create h
    | health | list =>
      cases h
      exact hnone rfl
    | «show» id | delete id | reprovision id => exact hnone (toInstall?_withId (fun _ => rfl) h)
    | log id => exact hnone (toInstall?_log h)
    | stream id => exact hnone (toInstall?_stream h)

end Arrival

/-! ## The docket -/

/-- The service with what machines were created for, and what requests and runs are to install. -/
structure Docket where
  service : Service
  /-- What each request is to install, if that is known. -/
  orders : List (Option Inputs)
  /-- What each run is to install. -/
  runOrders : List (Option Inputs)
  /-- What each machine was created for, if its creation is on the docket. -/
  created : MachineId → Option Inputs

/-- What can happen to the service and its tables. -/
inductive Occurrence where
  | event (e : Event)
  /-- Somebody makes a write for a machine. -/
  | write (id : MachineId) (call : Write)
  /-- The interrupted runs are ended. -/
  | recovery (faults : RecoveryFaults)

namespace Docket

/-- The tables. -/
abbrev database (d : Docket) : Database := d.service.world.database

/-- A docket on which nothing was created yet. -/
def opened (s : Service) : Docket :=
  ⟨s, s.tasks.map fun _ => none, s.world.runs.map fun _ => none, fun _ => none⟩

/-- The docket after the n-th request has gone on from `t` to `t'`. -/
def step (d : Docket) (n : Nat) (t t' : Task) (service : Service) : Docket :=
  let order := (d.orders[n]?).join
  { service
    orders := match t.restarted? t' with
      | some id => d.orders.set n (d.created id)
      | none => d.orders
    runOrders := if t.starts then d.runOrders ++ [order] else d.runOrders
    created := match t.recorded? t' with
      | some id => Function.update d.created id order
      | none => d.created }

/-- The docket after something has happened. -/
def next (setup : Setup) (d : Docket) : Occurrence → Docket
  | .event (.request r name) =>
    match Start.ofRequest r name with
    | .task _ =>
      { d with
        service := d.service.next setup (.request r name)
        orders := d.orders ++ [r.inputs?] }
    | .response _ => d
  | .event (.step n o) =>
    match d.service.tasks[n]? with
    | some t =>
      d.step n t (t.step setup o d.service.world).1 (d.service.next setup (.step n o))
    | none => d
  | .event (.drop n) =>
    { d with service := d.service.next setup (.drop n), orders := d.orders.eraseIdx n }
  | .event (.run n fault) => { d with service := d.service.next setup (.run n fault) }
  | .write id call =>
    { d with service := { d.service with world := (d.service.world.write id call none).2 } }
  | .recovery faults =>
    { d with
      service := { d.service with
        world := { d.service.world with database := (d.database.failInterrupted faults).2 } } }

/-- The docket after a history. -/
def play (setup : Setup) (d : Docket) (history : List Occurrence) : Docket :=
  history.foldl (next setup) d

theorem play_cons (setup : Setup) (d : Docket) (o : Occurrence) (history : List Occurrence) :
    d.play setup (o :: history) = (d.next setup o).play setup history := rfl

/-- Rows, requests and runs have the inputs on the docket. -/
structure Faithful (d : Docket) : Prop where
  rows : ∀ id x m, d.created id = some x → d.database.find? id = some m → m.inputs = .ofInputs x
  tasks : List.Forall₂ (fun t order => ∀ x ∈ order, ∀ y ∈ t.toInstall?, y = x)
    d.service.tasks d.orders
  runs : List.Forall₂ (fun active order => ∀ x ∈ order, active.run.inputs = x)
    d.service.world.runs d.runOrders

variable {setup : Setup} {d : Docket}

theorem faithful_opened (s : Service) : (opened s).Faithful where
  rows := nofun
  tasks := by
    simp only [opened, List.forall₂_map_right_iff]
    exact List.forall₂_same.2 fun _ _ => nofun
  runs := by
    simp only [opened, List.forall₂_map_right_iff]
    exact List.forall₂_same.2 fun _ _ => nofun

/-- Inputs in the tables are kept by whatever keeps those of the rows that are there. -/
theorem Faithful.rows_of_keeps (h : d.Faithful) {db : Database} (hdb : d.database.KeepsInputs db) :
    ∀ id x m, d.created id = some x → db.find? id = some m → m.inputs = .ofInputs x := by
  intro id x m' hcreated hm'
  obtain ⟨m, hm, hinputs⟩ := hdb id m' hm'
  rw [hinputs]
  exact h.rows id x m hcreated hm

/-- A request makes a step. -/
theorem Faithful.step (h : d.Faithful) {n : Nat} {t t' : Task} {w' : World}
    {issued : List MachineId} (hn : d.service.tasks[n]? = some t)
    (hstep : t.InputStep d.service.world t' w') :
    (d.step n t t' ⟨w', d.service.tasks.set n t', issued⟩).Faithful := by
  obtain ⟨order, horder, ht⟩ := exists_of_forall₂ h.tasks hn
  cases hstep with
  | passes hrecorded hrestarted hstarts htask hrows hruns =>
    have ht' : ∀ x ∈ order, ∀ y ∈ t'.toInstall?, y = x := fun x hx y hy => ht x hx y (htask y hy)
    refine ⟨?_, ?_, ?_⟩ <;> simp only [Docket.step, hrecorded, hrestarted, hstarts]
    · exact h.rows_of_keeps hrows
    · exact forall₂_set_left h.tasks horder ht'
    · exact hruns ▸ h.runs
  | recorded id x hrecorded hrestarted hstarts htask htask' hrows hruns =>
    have horder' : ∀ y ∈ order, x = y := fun y hy => ht y hy x htask
    have ht' : ∀ y ∈ order, ∀ z ∈ t'.toInstall?, z = y := by
      rintro y hy z hz
      rw [htask'] at hz
      cases hz
      exact horder' y hy
    refine ⟨?_, ?_, ?_⟩ <;>
      simp only [Docket.step, hrecorded, hrestarted, hstarts, horder, Option.join_some]
    · intro other y m' hcreated hm'
      rcases hrows other m' hm' with ⟨rfl, hinputs⟩ | ⟨hother, hm⟩
      · rw [Function.update_self] at hcreated
        rw [hinputs, horder' y hcreated]
      · rw [Function.update_of_ne hother] at hcreated
        exact h.rows other y m' hcreated hm
    · exact forall₂_set_left h.tasks horder ht'
    · exact hruns ▸ h.runs
  | restarted id m hrecorded hrestarted hstarts hrow htask' hrows hruns =>
    have ht' : ∀ x ∈ d.created id, ∀ y ∈ t'.toInstall?, y = x := by
      rintro x hx y hy
      rw [htask', h.rows id x m hx hrow, StoredInputs.inputs_ofInputs] at hy
      exact (Option.some.inj hy).symm
    refine ⟨?_, ?_, ?_⟩ <;> simp only [Docket.step, hrecorded, hrestarted, hstarts]
    · exact h.rows_of_keeps hrows
    · exact forall₂_set h.tasks ht' n
    · exact hruns ▸ h.runs
  | started run script hrecorded hrestarted hstarts htask htask' hworld =>
    subst hworld
    have ht' : ∀ x ∈ order, ∀ y ∈ t'.toInstall?, y = x := by
      rintro x - y hy
      rw [htask'] at hy
      cases hy
    refine ⟨?_, ?_, ?_⟩ <;>
      simp only [Docket.step, hrecorded, hrestarted, hstarts, horder, Option.join_some]
    · exact h.rows
    · exact forall₂_set_left h.tasks horder ht'
    · exact forall₂_concat h.runs fun x hx => ht x hx run.inputs htask

/-- **Whatever happens, inputs stay as they are on the docket.** -/
theorem Faithful.next (h : d.Faithful) (o : Occurrence) : (d.next setup o).Faithful := by
  cases o with
  | write id call =>
    exact ⟨h.rows_of_keeps (keepsInputs_perform d.database id call), h.tasks, h.runs⟩
  | recovery faults =>
    exact ⟨h.rows_of_keeps (keepsInputs_failInterrupted d.database faults), h.tasks, h.runs⟩
  | event e =>
    cases e with
    | request r name =>
      simp only [Docket.next, Service.next]
      cases hstart : Start.ofRequest r name with
      | response _ => exact h
      | task t =>
        refine ⟨h.rows, forall₂_concat h.tasks ?_, h.runs⟩
        intro x hx y hy
        exact Option.some.inj ((inputs?_of_ofRequest hstart y hy).symm.trans hx)
    | step n o =>
      simp only [Docket.next, Service.next]
      cases hn : d.service.tasks[n]? with
      | none => exact h
      | some t => exact h.step hn (t.inputStep_step setup o d.service.world)
    | drop n => exact ⟨h.rows, forall₂_eraseIdx h.tasks n, h.runs⟩
    | run n fault =>
      -- a step changes what is left of a run, and never what the run is to install
      have hset : ∀ {active : ActiveRun} {script : Script},
          d.service.world.runs[n]? = some active →
          List.Forall₂ (fun active order => ∀ x ∈ order, active.run.inputs = x)
            (d.service.world.runs.set n { active with script }) d.runOrders := by
        intro active script hn
        obtain ⟨order, horder, hrun⟩ := exists_of_forall₂ h.runs hn
        exact forall₂_set_left h.runs horder hrun
      have hstep := World.runStep_spec d.service.world n fault
      simp only [Docket.next, Service.next]
      generalize d.service.world.runStep n fault = w at hstep ⊢
      cases hstep with
      | idle => exact h
      | failed hn _ _ => exact ⟨h.rows, h.tasks, hset hn⟩
      | written hn _ _ =>
        exact ⟨h.rows_of_keeps (keepsInputs_perform d.database _ _), h.tasks, hset hn⟩
      | notified hn _ => exact ⟨h.rows, h.tasks, hset hn⟩

/-- **Inputs stay as they are on the docket, whatever the history.** -/
theorem Faithful.play (h : d.Faithful) (history : List Occurrence) :
    (d.play setup history).Faithful := by
  induction history generalizing d with
  | nil => exact h
  | cons o history ih =>
    rw [play_cons]
    exact ih (h.next o)

/--
**Inputs survive.** Every value of the inputs is read back from the text that is stored for it. In
whatever order requests and runs go on, whatever fails or is dropped, whatever else is written and
whenever interrupted runs are ended:

* what is stored for a machine that was created is read as the inputs in the body of the request that
  created it, and so is its text;
* each run has the inputs that it was started for, which are those in the body of its own request for
  a new machine, and those that the machine was created with for one that is provisioned again.
-/
theorem inputs_survive (setup : Setup) (s : Service) (history : List Occurrence) :
    let d := (opened s).play setup history
    (∀ x : Inputs, Inputs.ofText? x.stored = some x) ∧
      (∀ id x m, d.created id = some x → d.database.find? id = some m →
        m.inputs.inputs = x ∧ Inputs.ofText? m.inputs.json.render = some x) ∧
      List.Forall₂ (fun active order => ∀ x ∈ order, active.run.inputs = x)
        d.service.world.runs d.runOrders := by
  have h : ((opened s).play setup history).Faithful := (faithful_opened s).play history
  refine ⟨Inputs.ofText?_stored, fun id x m hcreated hm => ?_, h.runs⟩
  rw [h.rows id x m hcreated hm]
  exact ⟨StoredInputs.inputs_ofInputs x, x.ofText?_stored⟩

/-! ## A machine that is provisioned again -/

/-- A key with a quote in it, and a channel with an empty token and no name. -/
def quotedInputs : Inputs :=
  { Inputs.empty with
    openaiKey := some "sk-\"1"
    channels := [⟨"telegram", some "", none, none⟩] }

/-- A request for a machine with these inputs. -/
def orderQuoted : Event :=
  .request ⟨.post, ⟨"/api/v1/machines".toList, []⟩, [.ofText "content-type" "application/json"],
    quotedInputs.stored.toUTF8.toList, false⟩ "db"

/-- The machine is created, its run is cut short, and it is provisioned again. -/
def cutShort : List Occurrence :=
  .event orderQuoted :: List.replicate 12 (.event (.step 0 Service.calmOutside)) ++
    .recovery ⟨none, none, none, none⟩ ::
    .event (Service.postTo "/api/v1/machines/2/reprovision") ::
    List.replicate 4 (.event (.step 1 Service.calmOutside))

/-- The docket after that. -/
def afterCutShort : Docket := (opened (.booted .empty [] [])).play Service.plainSetup cutShort

theorem inputs_survive_afterCutShort :
    afterCutShort.created 2 = some quotedInputs ∧
      afterCutShort.runOrders = [some quotedInputs, some quotedInputs] ∧
      (∀ m, afterCutShort.database.find? 2 = some m →
        m.inputs.inputs = quotedInputs ∧ Inputs.ofText? m.inputs.json.render = some quotedInputs) ∧
      List.Forall₂ (fun active order => ∀ x ∈ order, active.run.inputs = x)
        afterCutShort.service.world.runs afterCutShort.runOrders := by
  have hcreated : afterCutShort.created 2 = some quotedInputs := by decide +kernel
  obtain ⟨-, hrows, hruns⟩ := inputs_survive Service.plainSetup (.booted .empty [] []) cutShort
  exact ⟨hcreated, by decide +kernel, fun m hm => hrows 2 quotedInputs m hcreated hm, hruns⟩

end Docket

end Api

end Provisioner
