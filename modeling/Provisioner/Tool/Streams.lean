import Provisioner.Log.Splitter

/-!
# Reading the two output streams of the configuration tool

Each stream is read by a *pump* that splits it into lines and hands them to one bounded queue, from
which they are received one by one. Pumps and receiver take turns in any order. A turn that is
not possible changes nothing.

`Streams.run` takes some turns and then lets everything come to its end. What was received is a
list of events: lines of either stream, and silences during which nothing came.
-/

namespace Provisioner.Tool

/-- One of the two streams. -/
inductive Stream where
  | out
  | err
deriving DecidableEq, Repr

/-- What is received while the tool runs. -/
inductive Event where
  | line (text : String)
  /-- Nothing came for the time that is worth a line, the tool running for `elapsed` seconds. -/
  | silence (elapsed : Nat)
deriving DecidableEq, Repr

/-- One stream and how far it was read. -/
structure Pump where
  /-- What is still to be read, as the reads will return it. -/
  unread : List (List UInt8)
  splitter : Splitter
  /-- Lines that were split off and not handed over yet. -/
  waiting : List String
  /-- Whether the end of the stream was read. -/
  ended : Bool
deriving DecidableEq, Repr

namespace Pump

/-- A stream of which nothing was read. -/
def start (chunks : List (List UInt8)) : Pump := ⟨chunks, .start, [], false⟩

/-- Reads the next chunk or the end of the stream, once all earlier lines are handed over. -/
def read? (p : Pump) : Option Pump :=
  match p.waiting, p.unread, p.ended with
  | [], chunk :: unread, false =>
    let (lines, splitter) := p.splitter.push chunk
    some ⟨unread, splitter, lines, false⟩
  | [], [], false =>
    let (line, splitter) := p.splitter.finish
    some ⟨[], splitter, line.toList, true⟩
  | _, _, _ => none

/-- Whether nothing more will be handed over. -/
def isDone (p : Pump) : Bool := p.ended && p.waiting.isEmpty

/-- How much is still to be read. -/
def unreadSize : List (List UInt8) → Nat
  | [] => 0
  | chunk :: unread => chunk.length + 1 + unreadSize unread

/-- How much is still to be done before the pump is done. -/
def work (p : Pump) : Nat :=
  3 * unreadSize p.unread + (if p.ended then 0 else 3) + 2 * p.waiting.length

/-- A splitter gives at most one line for each byte. -/
theorem pushFrom_length_le (pending : List UInt8) (done : List String) (chunk : List UInt8) :
    (Splitter.pushFrom pending done chunk).1.length ≤ done.length + chunk.length := by
  induction chunk generalizing pending done with
  | nil => simp [Splitter.pushFrom]
  | cons b chunk ih =>
    simp only [Splitter.pushFrom]
    split
    · have := ih [] (Splitter.lineOf pending :: done)
      simp at this ⊢
      omega
    · have := ih (b :: pending) done
      simp at this ⊢
      omega

theorem work_read?_lt {p q : Pump} (h : p.read? = some q) : q.work < p.work := by
  obtain ⟨unread, splitter, waiting, ended⟩ := p
  cases waiting with
  | cons line waiting => simp [read?] at h
  | nil =>
    cases ended with
    | true => cases unread <;> simp [read?] at h
    | false =>
      cases unread with
      | cons chunk unread =>
        simp only [read?, Option.some.injEq] at h
        subst h
        have := pushFrom_length_le splitter.pending [] chunk
        simp [work, unreadSize, Splitter.push] at this ⊢
        omega
      | nil =>
        simp only [read?, Option.some.injEq] at h
        subst h
        by_cases hp : splitter.pending.isEmpty <;> simp [work, unreadSize, Splitter.finish, hp]

end Pump

/-- How many lines the queue holds at most. -/
def queueLimit : Nat := 256

/-- The two streams, the queue and what was received. -/
structure Streams where
  out : Pump
  err : Pump
  /-- The lines in the queue, first in first. -/
  queue : List String
  /-- The events so far, last first. -/
  received : List Event
deriving DecidableEq, Repr

/-- Who takes a turn. -/
inductive Turn where
  /-- A pump reads. -/
  | read (stream : Stream)
  /-- A pump hands one line over. -/
  | send (stream : Stream)
  /-- The receiver takes one line. -/
  | receive
  /-- The receiver has waited in vain. -/
  | silence (elapsed : Nat)
deriving DecidableEq, Repr

namespace Streams

/-- Before anything is read. -/
def start (out err : List (List UInt8)) : Streams := ⟨.start out, .start err, [], []⟩

/-- The pump of a stream. -/
def pump (s : Streams) : Stream → Pump
  | .out => s.out
  | .err => s.err

/-- The streams with another pump for one of them. -/
def withPump (s : Streams) (stream : Stream) (p : Pump) : Streams :=
  match stream with
  | .out => { s with out := p }
  | .err => { s with err := p }

/-- A pump reads, if it can. -/
def read? (s : Streams) (stream : Stream) : Option Streams :=
  (s.pump stream).read?.map (s.withPump stream)

/-- A pump hands one line over, if it has one and the queue has room. -/
def send? (s : Streams) (stream : Stream) : Option Streams :=
  match (s.pump stream).waiting with
  | line :: waiting =>
    if s.queue.length < queueLimit then
      some { s.withPump stream { s.pump stream with waiting } with queue := s.queue ++ [line] }
    else none
  | [] => none

/-- The receiver takes one line, if there is one. -/
def receive? (s : Streams) : Option Streams :=
  match s.queue with
  | line :: queue => some { s with queue, received := .line line :: s.received }
  | [] => none

/-- Whether the receiver has nothing more to wait for. -/
def isOver (s : Streams) : Bool := s.out.isDone && s.err.isDone && s.queue.isEmpty

/-- The receiver has waited in vain, if there was nothing for it. -/
def silence? (s : Streams) (elapsed : Nat) : Option Streams :=
  if s.queue.isEmpty && !s.isOver then some { s with received := .silence elapsed :: s.received }
  else none

/-- A turn, if it is possible. -/
def step? (s : Streams) : Turn → Option Streams
  | .read stream => s.read? stream
  | .send stream => s.send? stream
  | .receive => s.receive?
  | .silence elapsed => s.silence? elapsed

/-- A turn; one that is not possible changes nothing. -/
def step (s : Streams) (turn : Turn) : Streams := (s.step? turn).getD s

/-- A turn that brings the streams closer to their end, if there is one. -/
def advance? (s : Streams) : Option Streams :=
  s.receive?.or ((s.send? .out).or ((s.send? .err).or ((s.read? .out).or (s.read? .err))))

/-- How much is still to be done. -/
def work (s : Streams) : Nat := s.out.work + s.err.work + s.queue.length

theorem work_receive?_lt {s t : Streams} (h : s.receive? = some t) : t.work < s.work := by
  obtain ⟨out, err, queue, received⟩ := s
  cases queue with
  | nil => simp [receive?] at h
  | cons line queue =>
    simp only [receive?, Option.some.injEq] at h
    subst h
    simp [work]

theorem work_send?_lt {s t : Streams} {stream : Stream} (h : s.send? stream = some t) :
    t.work < s.work := by
  obtain ⟨⟨ou, os, ow, oe⟩, ⟨eu, es, ew, ee⟩, queue, received⟩ := s
  cases stream
  · cases ow with
    | nil => simp [send?, pump] at h
    | cons line waiting =>
      simp only [send?, pump, withPump] at h
      split at h
      · simp only [Option.some.injEq] at h
        subst h
        simp [work, Pump.work]
        omega
      · simp at h
  · cases ew with
    | nil => simp [send?, pump] at h
    | cons line waiting =>
      simp only [send?, pump, withPump] at h
      split at h
      · simp only [Option.some.injEq] at h
        subst h
        simp [work, Pump.work]
        omega
      · simp at h

theorem work_read?_lt {s t : Streams} {stream : Stream} (h : s.read? stream = some t) :
    t.work < s.work := by
  simp only [read?, Option.map_eq_some_iff] at h
  obtain ⟨q, hq, rfl⟩ := h
  have := Pump.work_read?_lt hq
  cases stream <;> simp [work, withPump, pump] at this ⊢ <;> omega

theorem work_advance?_lt {s t : Streams} (h : s.advance? = some t) : t.work < s.work := by
  simp only [advance?, Option.or_eq_some_iff] at h
  rcases h with h | ⟨_, h | ⟨_, h | ⟨_, h | ⟨_, h⟩⟩⟩⟩
  · exact work_receive?_lt h
  · exact work_send?_lt h
  · exact work_send?_lt h
  · exact work_read?_lt h
  · exact work_read?_lt h

/-- Lets both streams be read to their end and all lines be received. -/
def drain (s : Streams) : Streams :=
  match _h : s.advance? with
  | some t => drain t
  | none => s
termination_by s.work
decreasing_by exact work_advance?_lt _h

/-- Takes some turns and then lets everything come to its end. -/
def run (s : Streams) (turns : List Turn) : Streams := (turns.foldl step s).drain

/-- The events of a run of the streams, first one first. -/
def events (out err : List (List UInt8)) (turns : List Turn) : List Event :=
  ((start out err).run turns).received.reverse

end Streams

end Provisioner.Tool
