import Provisioner.Proofs.Api.Concurrency
import Provisioner.Proofs.Store.Recovery

/-!
# At most one run for each machine

Requests and runs happen in any order, statements fail at any time, and requests are dropped at any
step. All the same no two runs of a machine are under way at once, because a reprovision takes hold
of the machine by the very statement that asks for a terminal status.
-/

namespace Provisioner.Api

open Database

namespace Service

variable {setup : Setup} {s : Service}

/-- The service before its first request. -/
def booted (database : Database) (servers issued : List MachineId) : Service :=
  ⟨{ World.empty with database, servers }, [], issued⟩

/-- The service after some events. -/
def play (setup : Setup) (s : Service) (events : List Event) : Service :=
  events.foldl (next setup) s

theorem play_cons (setup : Setup) (s : Service) (e : Event) (events : List Event) :
    s.play setup (e :: events) = (s.next setup e).play setup events := rfl

/-- The provider never hands out an id twice. -/
def AllFresh (setup : Setup) : Service → List Event → Prop
  | _, [] => True
  | s, e :: events => s.Fresh e ∧ AllFresh setup (s.next setup e) events

instance decidableAllFresh (setup : Setup) :
    (s : Service) → (events : List Event) → Decidable (AllFresh setup s events)
  | _, [] => isTrue trivial
  | s, e :: events =>
    have := decidableAllFresh setup (s.next setup e) events
    inferInstanceAs (Decidable (s.Fresh e ∧ AllFresh setup (s.next setup e) events))

/-- At most one acts for each machine. -/
structure Exclusive (s : Service) : Prop where
  orderly : s.Orderly
  sound : ∀ id, (s.ledger id).Sound

theorem exclusive_booted {db : Database} {issued : List MachineId}
    (hissued : ∀ m ∈ db.machines, m.id ∈ issued) (servers : List MachineId) :
    (booted db servers issued).Exclusive := by
  refine ⟨⟨fun _ h => absurd h List.not_mem_nil, fun _ h => absurd h List.not_mem_nil⟩, ?_⟩
  intro id
  have hrecordings : ((booted db servers issued).ledger id).recordings = 0 := rfl
  have htriggers : ((booted db servers issued).ledger id).triggers = 0 := rfl
  have hopenRuns : ((booted db servers issued).ledger id).openRuns = 0 := rfl
  refine ⟨by omega, by omega, by omega, ?_⟩
  rintro (hpos | hstatus)
  · omega
  · obtain ⟨word, hword⟩ := Option.ne_none_iff_exists'.mp hstatus
    obtain ⟨row, hrow, -⟩ := Option.map_eq_some_iff.mp hword
    have hmem := hissued row (mem_of_find? hrow)
    rw [id_of_find? hrow] at hmem
    exact List.contains_iff_mem.mpr hmem

theorem Exclusive.next (h : s.Exclusive) {e : Event} (he : s.Fresh e) :
    (s.next setup e).Exclusive :=
  ⟨h.orderly.next setup e, fun id => (h.sound id).change (change_next h.orderly setup he id)⟩

/-- Whatever happens, at most one acts for each machine. -/
theorem Exclusive.play (h : s.Exclusive) {events : List Event} (he : AllFresh setup s events) :
    (s.play setup events).Exclusive := by
  induction events generalizing s with
  | nil => exact h
  | cons e events ih =>
    rw [play_cons]
    exact ih (h.next he.1) he.2

/-- While nothing is lost, somebody acts for each machine that is being provisioned. -/
theorem cared_play (h : s.Exclusive) {id : MachineId} (hcared : (s.ledger id).Cared)
    {events : List Event} (he : AllFresh setup s events) (hcalm : ∀ e ∈ events, e.Calm) :
    ((s.play setup events).ledger id).Cared := by
  induction events generalizing s with
  | nil => exact hcared
  | cons e events ih =>
    rw [play_cons]
    have hchange := change_next h.orderly setup he.1 id
    rw [eq_true (hcalm e List.mem_cons_self)] at hchange
    exact ih (h.next he.1) (hcared.change hchange) he.2
      fun e he => hcalm e (List.mem_cons_of_mem _ he)

/--
**The status in its row keeps each machine to one run.** The service starts with the tables as the
recovery leaves them and the provider never hands out an id twice. In whatever order requests and
runs go on, whichever statements fail and whichever requests are dropped:

* at most one run of a machine has still to write its status, which is as long as it may write;
* a machine is only set back when no run of it has still to write and no request is about to start
  one.

If no statement fails and no request is dropped, a stored machine is being provisioned just when one
run of it has still to write or one request is about to start one.
-/
theorem at_most_one_run {setup : Setup} {stored db : Database} {faults : RecoveryFaults}
    {ids servers issued : List MachineId}
    (hrecovered : stored.failInterrupted faults = (.ok ids, db))
    (hissued : ∀ m ∈ db.machines, m.id ∈ issued) {events : List Event}
    (hfresh : AllFresh setup (booted db servers issued) events) (id : MachineId) :
    let s := (booted db servers issued).play setup events
    s.openRuns id ≤ 1 ∧
    (∀ active ∈ s.world.runs, active.script.awaitsStatus = active.script.mayWrite) ∧
    (∀ row, (s.world.database.beginReprovision id).1 = some row →
      s.openRuns id = 0 ∧ s.triggers id = 0) ∧
    ((∀ e ∈ events, e.Calm) → ∀ m, s.world.database.find? id = some m →
      (m.status = MachineStatus.provisioning.word ↔ s.openRuns id + s.triggers id = 1)) := by
  intro s
  have hboot := exclusive_booted hissued servers
  have hexclusive : s.Exclusive := hboot.play hfresh
  have hsound := hexclusive.sound id
  have honce : s.recordings id + s.triggers id + s.openRuns id ≤ 1 := hsound.once
  refine ⟨by omega, ?_, ?_, ?_⟩
  · intro active hactive
    rcases hexclusive.orderly.runs active hactive with h | h
    · rw [h.awaitsStatus_eq, h.mayWrite_eq]
    · rw [h.awaitsStatus_eq, h.mayWrite_eq]
  · intro row hrow
    obtain ⟨-, ⟨status, hterminal, hstatus⟩, -⟩ := beginReprovision_spec hrow
    -- the statement has just seen a terminal status, which a sound ledger has only when free
    have hfree : s.triggers id + s.openRuns id = 0 :=
      (hsound.free_of_terminal hterminal hstatus).2
    omega
  · intro hcalm m hm
    have hstatus : s.world.database.statusOf? id = some m.status := by
      unfold statusOf?
      rw [hm, Option.map_some]
    constructor
    · intro hprovisioning
      -- the recovery leaves no machine being provisioned, so that nobody is missing at the start
      have hcared : ((booted db servers issued).ledger id).Cared :=
        fun h => absurd h (statusOf?_of_failInterrupted hrecovered id)
      have hpos : 0 < s.triggers id + s.openRuns id :=
        cared_play hboot hcared hfresh hcalm (hstatus.trans (congrArg some hprovisioning))
      omega
    · intro hone
      rcases hsound.reserved (show 0 < s.triggers id + s.openRuns id by omega) with hnone | hsome
      · exact nomatch hstatus.symm.trans hnone
      · exact Option.some.inj (hstatus.symm.trans hsome)

/-! ## Two reprovisions and a creation -/

/-- One machine, whose run the last process left unfinished. -/
def interruptedTables : Database :=
  { Database.empty with
    machines := [NewMachine.row ⟨1, "web", "192.0.2.1", "hetzner", .empty⟩ ⟨0, 0⟩] }

/-- A service whose prober gives up at once. -/
def plainSetup : Setup :=
  ⟨⟨⟨⟨0, 0, 0, 0, sshPort⟩, ⟨0, 0, 0, 0, sshPort⟩⟩,
    ⟨"ansible-playbook", "site.yml", "key", [], 0⟩⟩, "hetzner", "1.0.0"⟩

/-- Nothing fails, and the provider makes the machine 2 if it is asked. -/
def calmOutside : Outside :=
  ⟨none, ⟨.ok ⟨2, "db", "192.0.2.2"⟩, some 2⟩, ⟨.ok (), false⟩,
    ⟨fun _ => .unanswered, ⟨.error "disk full", .error .missing⟩⟩⟩

/-- A request without inputs. -/
def postTo (path : String) : Event :=
  .request ⟨.post, ⟨path.toList, []⟩, [.ofText "content-type" "application/json"],
    "{}".toUTF8.toList, false⟩ "db"

/-- The first reprovision starts its run, the second is refused, and a machine is recorded. -/
def mixedEvents : List Event :=
  [postTo "/api/v1/machines/1/reprovision", postTo "/api/v1/machines/1/reprovision",
    postTo "/api/v1/machines", .step 2 calmOutside, .step 0 calmOutside, .step 2 calmOutside,
    .step 1 calmOutside, .step 1 calmOutside, .step 0 calmOutside, .step 0 calmOutside,
    .step 0 calmOutside, .run 0 none]

/-- The service after these events. -/
def afterMixedEvents : Service :=
  (booted interruptedTables.withoutInterrupted [1] [1]).play plainSetup mixedEvents

theorem at_most_one_run_afterMixedEvents :
    interruptedTables.failInterrupted ⟨none, none, none, none⟩ =
      (.ok [1], interruptedTables.withoutInterrupted) ∧
    (∀ m ∈ interruptedTables.withoutInterrupted.machines, m.id ∈ [(1 : MachineId)]) ∧
    AllFresh plainSetup (booted interruptedTables.withoutInterrupted [1] [1]) mixedEvents ∧
    (∀ e ∈ mixedEvents, e.Calm) ∧
    afterMixedEvents.openRuns 1 = 1 ∧ afterMixedEvents.triggers 2 = 1 ∧
    ∀ id, afterMixedEvents.openRuns id ≤ 1 ∧
      (∀ row, (afterMixedEvents.world.database.beginReprovision id).1 = some row →
        afterMixedEvents.openRuns id = 0 ∧ afterMixedEvents.triggers id = 0) ∧
      ∀ m, afterMixedEvents.world.database.find? id = some m →
        (m.status = MachineStatus.provisioning.word ↔
          afterMixedEvents.openRuns id + afterMixedEvents.triggers id = 1) := by
  have hrecovered : interruptedTables.failInterrupted ⟨none, none, none, none⟩ =
      (.ok [1], interruptedTables.withoutInterrupted) := rfl
  have hissued : ∀ m ∈ interruptedTables.withoutInterrupted.machines,
      m.id ∈ [(1 : MachineId)] := by
    decide +kernel
  have hfresh :
      AllFresh plainSetup (booted interruptedTables.withoutInterrupted [1] [1]) mixedEvents := by
    decide +kernel
  have hcalm : ∀ e ∈ mixedEvents, e.Calm := by
    decide +kernel
  refine ⟨hrecovered, hissued, hfresh, hcalm, by decide +kernel, by decide +kernel, ?_⟩
  intro id
  obtain ⟨honce, -, hfree, hexact⟩ := at_most_one_run hrecovered hissued hfresh id
  exact ⟨honce, hfree, hexact hcalm⟩

end Service

end Provisioner.Api
