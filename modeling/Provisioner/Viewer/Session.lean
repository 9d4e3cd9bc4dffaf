import Provisioner.Hub
import Provisioner.Store.Database
import Provisioner.Viewer.Message

/-!
# A viewer's session

A session greets its viewer with a snapshot, sends every line of the machine's log, follows the log
as it grows, and ends once the machine is in a terminal status. It goes round a loop: take a handle
at the hub, read the snapshot, read the entries behind the cursor, send them, and either conclude or
wait.

* The handle is taken before both reads, so whatever is stored after a read wakes the session.
* The snapshot is read before the entries. A run stores its status after its last line, so the
  entries read after a terminal snapshot are all that the run has stored.

`Session.step` makes one step of the loop, which asks for one thing of the store or of the hub or
sends one message; the steps of sessions, runs and requests can be mixed in any way.
-/

namespace Provisioner

/-- How long a viewer may hear nothing before it is pinged, in milliseconds. -/
def keepAliveInterval : Nat := 54000

/-- How late a ping may be for the next one to be due as if it had been on time, in milliseconds. -/
def keepAliveTolerance : Nat := 5

/-- What is sent to a viewer. -/
inductive Frame where
  | message (m : Message)
  | ping
  /-- The answer to a ping of the viewer. -/
  | pong (payload : String)
  | close
deriving DecidableEq, Repr

namespace Session

/-- Why a session has ended. -/
inductive Ending where
  /-- The machine's status is terminal. -/
  | terminal
  | machineGone
  | viewerLeft
  | shutdown
  /-- The store could not be read or a message not be sent. -/
  | aborted
deriving DecidableEq, Repr

/-- Where a session stands. -/
inductive Stage where
  /-- The greeting is to be sent. -/
  | greeting (snapshot : Snapshot)
  /-- A handle is to be taken. -/
  | arming
  /-- The snapshot is to be read. -/
  | looking (wake : Handle)
  /-- The entries behind the cursor are to be read. -/
  | reading (wake : Handle) (current : Snapshot)
  /-- Some entries are to be sent. -/
  | forwarding (wake : Handle) (current : Snapshot) (left : List LogEntry)
  /-- The machine is gone, and its generation is to be removed. -/
  | leaving
  /-- Everything was sent; the session waits. -/
  | parked (wake : Handle)
  | ended (ending : Ending)
deriving DecidableEq, Repr

end Session

/-- A viewer's session. -/
structure Session where
  machine : MachineId
  stage : Session.Stage
  /-- The id of the last entry that was sent. -/
  cursor : Int
  /-- When the viewer is to be pinged next, in milliseconds. -/
  pingAt : Nat
  /-- What was sent, last first. -/
  sent : List Frame
deriving DecidableEq, Repr

namespace Session

/-- A session that begins at some time with the snapshot that was read for it. -/
def start (machine : MachineId) (snapshot : Snapshot) (now : Nat) : Session :=
  ⟨machine, .greeting snapshot, 0, now + keepAliveInterval, []⟩

/-- The session at another stage. -/
def go (s : Session) (stage : Stage) : Session := { s with stage }

/-- The session with one more frame sent. -/
def send (s : Session) (frame : Frame) : Session := { s with sent := frame :: s.sent }

/-- The session ends; the viewer is told so. -/
def finish (s : Session) (ending : Ending) : Session := (s.go (.ended ending)).send .close

/-- Whether the session has ended. -/
def isOver (s : Session) : Bool :=
  match s.stage with
  | .ended _ => true
  | _ => false

/-- The session when all entries that were read are sent: it concludes, or waits. -/
def conclude (s : Session) (wake : Handle) (current : Snapshot) : Session :=
  if current.status.isTerminal then
    (s.send (.message (.status current.status current.credentialRemoved))).finish .terminal
  else s.go (.parked wake)

/-- The session with one more entry sent. -/
def forward (s : Session) (entry : LogEntry) : Session :=
  { s.send (.message (.log entry.line)) with cursor := entry.id }

/--
One step of a session, with the hub after it. If `fails`, what the step asks of the store or sends
to the viewer fails. A session that is parked or has ended makes no step of its own.
-/
def step (s : Session) (db : Database) (hub : Hub) (fails : Bool) : Session × Hub :=
  match s.stage with
  | .greeting snapshot =>
    if fails then (s.finish .aborted, hub)
    else ((s.send (.message (.init snapshot))).go .arming, hub)
  | .arming =>
    let (wake, hub) := hub.wait s.machine
    (s.go (.looking wake), hub)
  | .looking wake =>
    if fails then (s.finish .aborted, hub)
    else
      match db.snapshot s.machine with
      | .error _ => (s.finish .aborted, hub)
      | .ok none => (s.go .leaving, hub)
      | .ok (some current) => (s.go (.reading wake current), hub)
  | .reading wake current =>
    if fails then (s.finish .aborted, hub)
    else (s.go (.forwarding wake current (db.entriesAfter s.machine s.cursor)), hub)
  | .forwarding wake current (entry :: left) =>
    if fails then (s.finish .aborted, hub)
    else ((s.forward entry).go (.forwarding wake current left), hub)
  | .forwarding wake current [] =>
    if fails && current.status.isTerminal then (s.finish .aborted, hub)
    else (s.conclude wake current, hub)
  | .leaving => (s.finish .machineGone, hub.remove s.machine)
  | .parked _ | .ended _ => (s, hub)

/-- What lets a parked session go on. -/
inductive Wakeup where
  /-- Its handle is woken. -/
  | signalled
  /-- It is time for a ping. -/
  | tick (now : Nat)
  | viewerLeft
  | shutdown
deriving DecidableEq, Repr

/--
When the next ping is due after one that is sent now: an interval after that one was due, or an
interval from now if it was too late.
-/
def nextPing (s : Session) (now : Nat) : Nat :=
  (if now ≤ s.pingAt + keepAliveTolerance then s.pingAt else now) + keepAliveInterval

/-- Lets a parked session go on. If `fails`, the ping cannot be sent. -/
def resume (s : Session) (cause : Wakeup) (fails : Bool) : Session :=
  match s.stage, cause with
  | .parked _, .signalled => s.go .arming
  | .parked _, .tick now =>
    if fails then s.finish .aborted
    else { s.send .ping with stage := .arming, pingAt := s.nextPing now }
  | .parked _, .viewerLeft => s.finish .viewerLeft
  | .parked _, .shutdown => s.finish .shutdown
  | _, _ => s

/-- A ping of the viewer is answered while the session goes on. -/
def answer (s : Session) (payload : String) : Session :=
  if s.isOver then s else s.send (.pong payload)

/-- Whether a parked session was woken. -/
def isWoken (s : Session) (hub : Hub) : Bool :=
  match s.stage with
  | .parked wake => hub.isSignalled wake
  | _ => false

/-- Whether the viewer of a parked session is to be pinged. -/
def isPingDue (s : Session) (now : Nat) : Bool :=
  match s.stage with
  | .parked _ => s.pingAt ≤ now
  | _ => false

/-- The messages that were sent, first one first. -/
def messages (s : Session) : List Message :=
  s.sent.reverse.filterMap fun
    | .message m => some m
    | _ => none

end Session

end Provisioner
