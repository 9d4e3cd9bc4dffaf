import Provisioner.Store.Faults
import Provisioner.Text.Utf8
import Provisioner.Viewer.Session

/-!
# Several viewers at once

A gallery is all viewers of a store, each in a seat of its own. Sessions take *turns*: in its turn a
session is carried on until it waits or has ended. Turns are taken in the order in which they were
given.

* Whatever lets waiting sessions go on gives each of them a turn, in the order in which they came to
  wait.
* What arrives from a viewer is looked at in a turn of its own.
* When no turn is left, those sessions get one whose time for a ping has come, the earliest first;
  of two that are due at one time, the one whose ping was set first.

Reads may be made to fail by plan.
-/

namespace Provisioner

namespace Session

/-- Whether a session waits or has ended. -/
def isResting (s : Session) : Bool :=
  match s.stage with
  | .parked _ | .ended _ => true
  | _ => false

/-- How far a session is from resting: the kind of its stage and the entries to be sent. -/
def distance (s : Session) : Nat × Nat :=
  match s.stage with
  | .greeting _ => (6, 0)
  | .arming => (5, 0)
  | .looking _ => (4, 0)
  | .reading _ _ => (3, 0)
  | .forwarding _ _ left => (2, left.length)
  | .leaving => (1, 0)
  | .parked _ | .ended _ => (0, 0)

/-- Every step of a session that does not rest brings it closer to resting. -/
theorem distance_step_lt (s : Session) (db : Database) (hub : Hub) (fails : Bool)
    (h : s.isResting = false) :
    Prod.Lex (· < ·) (· < ·) (s.step db hub fails).1.distance s.distance := by
  obtain ⟨machine, stage, cursor, pingAt, sent⟩ := s
  cases stage with
  | greeting snapshot =>
    cases fails <;> simp [step, finish, go, send, distance, Prod.lex_def]
  | arming => simp [step, go, distance, Prod.lex_def]
  | looking wake =>
    simp only [step]
    split
    · simp [finish, go, send, distance, Prod.lex_def]
    · split <;> simp [finish, go, send, distance, Prod.lex_def]
  | reading wake current =>
    cases fails <;> simp [step, finish, go, send, distance, Prod.lex_def]
  | forwarding wake current left =>
    cases left with
    | cons entry left =>
      cases fails <;> simp [step, finish, forward, go, send, distance, Prod.lex_def]
    | nil =>
      simp only [step]
      split
      · simp [finish, go, send, distance, Prod.lex_def]
      · simp only [conclude]
        split <;> simp [finish, go, send, distance, Prod.lex_def]
  | leaving => simp [step, finish, go, send, distance, Prod.lex_def]
  | parked wake => simp [isResting] at h
  | ended ending => simp [isResting] at h

/-- What a session reads in its next step. -/
def nextRead? (s : Session) : Option Read :=
  match s.stage with
  | .looking _ => some .snapshot
  | .reading _ _ => some .entriesAfter
  | _ => none

/-- Carries a session on until it waits or has ended. -/
def advance (s : Session) (db : Database) (hub : Hub) (faults : FaultPlan) :
    Session × Hub × FaultPlan :=
  if _h : s.isResting = true then (s, hub, faults)
  else
    let (fails, faults) := match s.nextRead? with
      | some read => faults.next read.name
      | none => (false, faults)
    let after := s.step db hub fails
    advance after.1 db after.2 faults
termination_by s.distance
decreasing_by exact distance_step_lt s db hub _ (by simpa using _h)

end Session

/-- What has become of a viewer's connection. -/
inductive Connection where
  | open
  /-- The viewer has closed it. -/
  | closed
  /-- The viewer has sent what cannot be read. -/
  | broken
  /-- It has vanished. -/
  | vanished
deriving DecidableEq, Repr

/-- What arrives from a viewer. -/
inductive Arrival where
  | ping (payload : String)
  | close
  /-- What cannot be read. -/
  | garbage
  /-- The end of the connection. -/
  | loss
deriving DecidableEq, Repr

/-- The greatest length of what a ping carries, in bytes. -/
def pingLimit : Nat := 125

/--
A ping that carries some bytes, which are shown as text. If there are too many it cannot be read.
-/
def Arrival.ofPing (payload : List UInt8) : Arrival :=
  if pingLimit < payload.length then garbage
  else ping (String.ofList (Text.Utf8.decodeLossy payload))

/-- A viewer. -/
structure Seat where
  /-- The session, unless the viewer was refused. -/
  session : Option Session
  connection : Connection
  /-- What has arrived and was not looked at yet, first one first. -/
  arrivals : List Arrival

namespace Seat

/-- The connection, if it is still open, becomes another. -/
def leave (seat : Seat) (connection : Connection) : Seat :=
  if seat.connection = .open then { seat with connection } else seat

/-- Looks at one thing that has arrived. -/
def take (seat : Seat) : Arrival → Seat
  | .ping payload =>
    if seat.connection = .open then { seat with session := seat.session.map (·.answer payload) }
    else seat
  | .close => seat.leave .closed
  | .garbage => seat.leave .broken
  | .loss => seat.leave .vanished

/-- Whether the viewer is not told of the end, because it has closed the connection itself. -/
def endsUntold (seat : Seat) (s : Session) : Bool :=
  match s.stage with
  | .ended .viewerLeft => seat.connection = .closed
  | _ => false

/-- What has reached the viewer, first one first. -/
def frames (seat : Seat) : List Frame :=
  match seat.session with
  | none => []
  | some s =>
    if seat.connection = .vanished then []
    else s.sent.reverse.filter fun frame => !(frame == .close && seat.endsUntold s)

/-- Whether the viewer has seen its connection end. -/
def isEnded (seat : Seat) : Bool := seat.connection ≠ .vanished && seat.session.any (·.isOver)

end Seat

/-- Whose turn it is. -/
inductive Turn where
  /-- The session in a seat goes on. -/
  | session (seat : Nat)
  /-- What has arrived from the viewer in a seat is looked at. -/
  | viewer (seat : Nat)
deriving DecidableEq, Repr

/-- All viewers of a store. -/
structure Gallery where
  database : Database
  faults : FaultPlan
  hub : Hub
  seats : List Seat
  /-- The time in milliseconds. -/
  now : Nat
  /-- Whether the server is about to stop. -/
  draining : Bool
  /-- The turns to be taken, first one first. -/
  turns : List Turn
  /-- The seats whose sessions wait, in the order in which they came to wait. -/
  waiting : List Nat
  /-- The seats in the order in which the times of their next pings were set. -/
  timed : List Nat

namespace Gallery

/-- No viewers yet. -/
def start (database : Database) (faults : FaultPlan) : Gallery :=
  { database, faults, hub := .empty, seats := [], now := 0, draining := false, turns := [],
    waiting := [], timed := [] }

/-- The session in a seat. -/
def session? (g : Gallery) (n : Nat) : Option Session := g.seats[n]?.bind (·.session)

/-- What lets the session in a seat go on now, the time left aside. -/
def cause? (g : Gallery) (n : Nat) : Option Session.Wakeup := do
  let seat ← g.seats[n]?
  let s ← seat.session
  if s.isWoken g.hub then some .signalled
  else if seat.connection ≠ .open then some .viewerLeft
  else if g.draining then some .shutdown
  else none

/-- Gives a turn to each waiting session that can go on now. -/
def wake (g : Gallery) : Gallery :=
  let (ready, waiting) := g.waiting.partition fun n => (g.cause? n).isSome
  { g with turns := g.turns ++ ready.map .session, waiting }

/-! ## What happens to a gallery -/

/-- A new viewer takes a seat, with a session or without. -/
def seat (g : Gallery) (session : Option Session) : Gallery :=
  let n := g.seats.length
  let g := { g with seats := g.seats ++ [⟨session, .open, []⟩] }
  if session.isSome then { g with turns := g.turns ++ [.session n], timed := g.timed ++ [n] } else g

/-- Those who wait for a machine are notified. -/
def notify (g : Gallery) (id : MachineId) : Gallery := wake { g with hub := g.hub.notify id }

/-- The generation of a machine is removed. -/
def remove (g : Gallery) (id : MachineId) : Gallery := wake { g with hub := g.hub.remove id }

/-- The server is about to stop. -/
def shutdown (g : Gallery) : Gallery := wake { g with draining := true }

/-- Something arrives from the viewer in a seat. -/
def receive (g : Gallery) (n : Nat) (arrivals : List Arrival) : Gallery :=
  match g.seats[n]? with
  | some seat =>
    { g with
      seats := g.seats.set n { seat with arrivals := seat.arrivals ++ arrivals }
      turns := g.turns ++ [.viewer n] }
  | none => g

/-- Time passes. -/
def elapse (g : Gallery) (milliseconds : Nat) : Gallery := { g with now := g.now + milliseconds }

/-! ## Turns -/

/-- A session as its turn in a seat begins. -/
def resume (g : Gallery) (n : Nat) (s : Session) : Session :=
  match g.cause? n with
  | some cause => s.resume cause false
  | none => if s.isPingDue g.now then s.resume (.tick g.now) false else s

/-- The turn of the session in a seat. -/
def carryOn (g : Gallery) (n : Nat) : Gallery :=
  match g.seats[n]? with
  | some seat =>
    match seat.session with
    | some before =>
      let (s, hub, faults) := (g.resume n before).advance g.database g.hub g.faults
      wake { g with
        hub, faults
        seats := g.seats.set n { seat with session := some s }
        waiting := if s.isOver then g.waiting else g.waiting ++ [n]
        timed := if s.pingAt = before.pingAt then g.timed else g.timed.filter (· ≠ n) ++ [n] }
    | none => g
  | none => g

/-- The turn of the viewer in a seat. -/
def hear (g : Gallery) (n : Nat) : Gallery :=
  match g.seats[n]? with
  | some seat =>
    wake { g with
      seats := g.seats.set n (seat.arrivals.foldl Seat.take { seat with arrivals := [] }) }
  | none => g

/-- Gives a turn to each waiting session whose time for a ping has come. -/
def timeUp (g : Gallery) : Gallery :=
  let pingAt (n : Nat) : Nat := (g.session? n).elim 0 (·.pingAt)
  let isDue (n : Nat) : Bool := g.waiting.contains n && (g.session? n).any (·.isPingDue g.now)
  let due := (g.timed.filter isDue).mergeSort fun a b => pingAt a ≤ pingAt b
  { g with turns := due.map .session, waiting := g.waiting.filter fun n => !due.contains n }

/-- Takes the next turn. -/
def takeTurn (g : Gallery) : Gallery :=
  match g.turns with
  | .session n :: turns => { g with turns }.carryOn n
  | .viewer n :: turns => { g with turns }.hear n
  | [] => g.timeUp

/--
Takes turns until none is left. Besides the turns that were given, a session gets at most one for
its ping and one for each other session that finds the machine gone, so so many are enough.
-/
def settle (g : Gallery) : Gallery :=
  let size := g.seats.length + 2
  (List.range (g.turns.length + size * size)).foldl (fun g _ => g.takeTurn) g

end Gallery

end Provisioner
