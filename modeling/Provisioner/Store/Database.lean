import Provisioner.Machine.Basic
import Provisioner.Store.Call
import Provisioner.Store.Failure

/-!
# The database

Two tables: the machines, each under its own id, and the log, whose entries get growing ids. An
entry belongs to a machine and is deleted with it. Every statement stands alone, but for the
transaction that ends interrupted runs.

Each function here is one statement that the database carries out. That a statement may also fail
without any effect is left to whoever issues it.
-/

namespace Provisioner

/-- The tables. -/
structure Database where
  machines : List Machine
  /-- The log of all machines, by growing id. -/
  log : List LogEntry
  /-- The id of the next entry. -/
  nextEntry : Int
  /--
  The seconds of the next statement; each statement is later than the one before, but all that a
  transaction does has one time.
  -/
  clock : Int

/-- What is recorded of a machine that the provider has just made. -/
structure NewMachine where
  id : MachineId
  name : String
  address : String
  provider : String
  inputs : Inputs

/-- The log line for a machine whose run ended with the process. -/
def interruptedLine : String := "Provisioning interrupted by server restart"

namespace Database

/-- Empty tables. -/
def empty : Database := ⟨[], [], 1, 0⟩

/-- The time of a statement. -/
def now (db : Database) : Timestamp := ⟨db.clock, 0⟩

/-- The database after the time of a statement. -/
def tick (db : Database) : Database := { db with clock := db.clock + 1 }

@[simp] theorem nextEntry_tick (db : Database) : db.tick.nextEntry = db.nextEntry := rfl

/-! ## Machines -/

/-- The machine with some id. -/
def find? (db : Database) (id : MachineId) : Option Machine := db.machines.find? (·.id == id)

/-- Whether there is a machine with some id. -/
def knows (db : Database) (id : MachineId) : Bool := db.machines.any (·.id == id)

/-- Whether one machine was made after another, or has the greater id. -/
def isNewer (a b : Machine) : Bool :=
  let key (m : Machine) := (m.createdAt.seconds, (m.createdAt.nanoseconds : Int), m.id.toInt)
  let (s, n, i) := key a
  let (s', n', i') := key b
  s' < s || (s' == s && (n' < n || (n' == n && i' ≤ i)))

/-- All machines, newest first. -/
def list (db : Database) : List Machine := db.machines.mergeSort isNewer

/-- The row of a new machine. -/
def NewMachine.row (new : NewMachine) (now : Timestamp) : Machine :=
  { id := new.id, name := new.name, address := new.address, provider := new.provider
    status := MachineStatus.provisioning.word, credentialRemoved := false, extractedOutput := ""
    inputs := .ofInputs new.inputs, createdAt := now, updatedAt := now }

/-- The failure of a statement that would give two machines one id. -/
def duplicateMachine : DatabaseFailure :=
  .refused (some DatabaseFailure.uniqueViolation) (some "machines_pkey")
    "duplicate key value violates unique constraint \"machines_pkey\""

/-- Records a machine that is being provisioned. -/
def insert (db : Database) (new : NewMachine) : Except DatabaseFailure (Machine × Database) :=
  if db.knows new.id then .error duplicateMachine
  else
    let row := NewMachine.row new db.now
    .ok (row, { db.tick with machines := db.machines ++ [row] })

/-- Deletes a machine with its log, and says whether there was one. -/
def erase (db : Database) (id : MachineId) : Bool × Database :=
  (db.knows id,
    { db with
      machines := db.machines.filter (·.id != id)
      log := db.log.filter (·.machine != id) })

/-- Changes the machines that satisfy `p`. -/
def updateWhere (db : Database) (p : Machine → Bool) (f : Machine → Machine) : Database :=
  { db.tick with
    machines := db.machines.map fun m => if p m then { f m with updatedAt := db.now } else m }

/-- Changes the machine with some id. -/
def update (db : Database) (id : MachineId) (f : Machine → Machine) : Database :=
  db.updateWhere (·.id == id) f

/-- Sets the status of a machine. -/
def setStatus (db : Database) (id : MachineId) (status : MachineStatus) : Database :=
  db.update id fun m => { m with status := status.word }

/-- Sets what was extracted from the output of a machine's run. -/
def setExtractedOutput (db : Database) (id : MachineId) (value : String) : Database :=
  db.update id fun m => { m with extractedOutput := value }

/-- Notes whether the provider's own key was revoked on a machine. -/
def setCredentialRemoved (db : Database) (id : MachineId) (removed : Bool) : Database :=
  db.update id fun m => { m with credentialRemoved := removed }

/-- Whether a machine can be provisioned again. -/
def isTerminal (m : Machine) : Bool :=
  m.status == MachineStatus.ready.word || m.status == MachineStatus.failed.word

/-- A machine that is to be provisioned again. -/
def restarted (m : Machine) : Machine :=
  { m with status := MachineStatus.provisioning.word, extractedOutput := "" }

/--
Sets a machine in a terminal status back to provisioning, with no extracted output, and gives its
row after that. A machine in another status is left alone, so only one of two such statements gets
the row.
-/
def beginReprovision (db : Database) (id : MachineId) : Option Machine × Database :=
  match db.find? id with
  | some m =>
    if isTerminal m then (some { restarted m with updatedAt := db.now }, db.update id restarted)
    else (none, db)
  | none => (none, db)

/-! ## The log -/

/-- Adds an entry of some time to the log, whatever its machine. -/
def addEntryAt (db : Database) (time : Timestamp) (id : MachineId) (line : String) :
    Int × Database :=
  (db.nextEntry,
    { db with
      log := db.log ++ [⟨db.nextEntry, id, line, time⟩]
      nextEntry := db.nextEntry + 1 })

/-- Adds an entry to the log, whatever its machine. -/
def addEntry (db : Database) (id : MachineId) (line : String) : Int × Database :=
  db.tick.addEntryAt db.now id line

/-- The failure of a statement that refers to a machine that is not there. -/
def missingMachine : DatabaseFailure :=
  .refused (some DatabaseFailure.missingReference) (some "machine_logs_machine_id_fkey")
    ("insert or update on table \"machine_logs\" violates foreign key constraint " ++
      "\"machine_logs_machine_id_fkey\"")

/-- Adds a line to the log of a machine. An entry that is refused uses up an id. -/
def append (db : Database) (id : MachineId) (line : String) :
    Except DatabaseFailure Int × Database :=
  if db.knows id then
    let (entry, db) := db.addEntry id line
    (.ok entry, db)
  else (.error missingMachine, { db.tick with nextEntry := db.nextEntry + 1 })

/-- The entries of a machine behind some id. -/
def entriesAfter (db : Database) (id : MachineId) (after : Int) : List LogEntry :=
  db.log.filter fun e => e.machine == id && after < e.id

/-- Deletes the entries of a machine. -/
def clearLog (db : Database) (id : MachineId) : Database :=
  { db with log := db.log.filter (·.machine != id) }

/-! ## Recovery -/

/-- The failures of the parts of the transaction that ends interrupted runs. -/
structure RecoveryFaults where
  beginning : Option DatabaseFailure
  update : Option DatabaseFailure
  entries : Option DatabaseFailure
  commit : Option DatabaseFailure

/-- Whether a machine is being provisioned. -/
def isProvisioning (m : Machine) : Bool := m.status == MachineStatus.provisioning.word

/-- The ids of the machines that are being provisioned. -/
def interrupted (db : Database) : List MachineId := (db.machines.filter isProvisioning).map (·.id)

/-- Adds the line about an interrupted run to some logs, to all of them at one time. -/
def addInterruptedLines (db : Database) (time : Timestamp) (ids : List MachineId) : Database :=
  ids.foldl (fun db id => (db.addEntryAt time id interruptedLine).2) db

/--
The tables once the interrupted runs are ended, with one more line in the log of each. Rows and
lines have the one time of the transaction.
-/
def withoutInterrupted (db : Database) : Database :=
  (db.updateWhere isProvisioning fun m => { m with status := MachineStatus.failed.word })
    |>.addInterruptedLines db.now (db.interrupted.mergeSort fun a b => decide (a ≤ b))

/--
Ends the runs that an earlier process was in the middle of, and gives the ids of their machines.
It is one transaction: if a part of it fails the tables stay as they were, though ids given to
entries are used up. Without such runs there is no part that adds entries.
-/
def failInterrupted (db : Database) (faults : RecoveryFaults) :
    Except DatabaseFailure (List MachineId) × Database :=
  let ids := db.interrupted
  let entriesFault := if ids.isEmpty then none else faults.entries
  match faults.beginning.or (faults.update.or entriesFault) with
  | some failure => (.error failure, db)
  | none =>
    let after := db.withoutInterrupted
    match faults.commit with
    | some failure => (.error failure, { db with nextEntry := after.nextEntry })
    | none => (.ok ids, after)

/-! ## What runs and viewers use -/

/-- Makes a write for a machine, and says whether it succeeded. -/
def perform (db : Database) (id : MachineId) : Write → Except DatabaseFailure Unit × Database
  | .append line =>
    let (entry, db) := db.append id line
    (entry.map fun _ => (), db)
  | .clearLog => (.ok (), db.clearLog id)
  | .setStatus status => (.ok (), db.setStatus id status)
  | .setExtractedOutput value => (.ok (), db.setExtractedOutput id value)
  | .setCredentialRemoved removed => (.ok (), db.setCredentialRemoved id removed)

/-- The snapshot of a machine, if there is one. -/
def snapshot (db : Database) (id : MachineId) : Except MachineFailure (Option Snapshot) :=
  match db.find? id with
  | some m => m.snapshot.map some
  | none => .ok none

end Database

end Provisioner
