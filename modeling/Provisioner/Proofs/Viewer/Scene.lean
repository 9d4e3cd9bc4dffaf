import Provisioner.Proofs.Deed
import Provisioner.Viewer.Session

/-!
# Viewers among all else that happens

A *scene* is the world with the sessions that follow its machines. It changes by *acts*: somebody
else does a deed, a session begins, or a session goes on by itself. Acts happen in any order, each
at one moment.

A session remembers only the id of the last entry that it sent. To say which entries those were,
each session is kept here with the entries that it has forwarded (`Follower`).

* `Follower.Move` says once what a session can do by itself.
* `Scene.Invariant.play` carries what every act keeps along any sequence of acts.
-/

namespace Provisioner

/-! ## What a session does -/

/-- A session with the entries that it has forwarded, first one first. -/
structure Follower where
  session : Session
  forwarded : List LogEntry

namespace Follower

/-- A session that begins at some time with the snapshot that was read for it. -/
def start (id : MachineId) (snapshot : Snapshot) (now : Nat) : Follower :=
  ⟨.start id snapshot now, []⟩

/-- The entries that a session has forwarded after its next step. -/
def forwardedNext (f : Follower) (fails : Bool) : List LogEntry :=
  match f.session.stage, fails with
  | .forwarding _ _ (entry :: _), false => f.forwarded ++ [entry]
  | _, _ => f.forwarded

/-- One step of a session, with the hub after it. If `fails`, what it asks for fails. -/
def step (f : Follower) (db : Database) (hub : Hub) (fails : Bool) : Follower × Hub :=
  (⟨(f.session.step db hub fails).1, f.forwardedNext fails⟩, (f.session.step db hub fails).2)

/-- Lets a parked session go on; it is woken only if its handle was. -/
def resume (f : Follower) (hub : Hub) (cause : Session.Wakeup) (fails : Bool) : Follower :=
  if cause = .signalled ∧ f.session.isWoken hub = false then f
  else { f with session := f.session.resume cause fails }

/-- All that a session can do by itself, with the hub after it. -/
inductive Move (db : Database) (hub : Hub) (f : Follower) : Follower → Hub → Prop where
  | idle : Move db hub f f hub
  | greet {snapshot : Snapshot} (hstage : f.session.stage = .greeting snapshot) :
      Move db hub f
        { f with session := (f.session.send (.message (.init snapshot))).go .arming } hub
  | arm (hstage : f.session.stage = .arming) :
      Move db hub f
        { f with session := f.session.go (.looking (hub.wait f.session.machine).1) }
        (hub.wait f.session.machine).2
  | look {wake : Handle} {current : Snapshot} (hstage : f.session.stage = .looking wake)
      (hread : db.snapshot f.session.machine = .ok (some current)) :
      Move db hub f { f with session := f.session.go (.reading wake current) } hub
  | miss {wake : Handle} (hstage : f.session.stage = .looking wake)
      (hread : db.snapshot f.session.machine = .ok none) :
      Move db hub f { f with session := f.session.go .leaving } hub
  | read {wake : Handle} {current : Snapshot} (hstage : f.session.stage = .reading wake current) :
      Move db hub f
        { f with
          session := f.session.go
            (.forwarding wake current (db.entriesAfter f.session.machine f.session.cursor)) }
        hub
  | forward {wake : Handle} {current : Snapshot} {entry : LogEntry} {left : List LogEntry}
      (hstage : f.session.stage = .forwarding wake current (entry :: left)) :
      Move db hub f
        ⟨(f.session.forward entry).go (.forwarding wake current left), f.forwarded ++ [entry]⟩ hub
  | tell {wake : Handle} {current : Snapshot} (hstage : f.session.stage = .forwarding wake current [])
      (hterminal : current.status.isTerminal = true) :
      Move db hub f
        { f with
          session :=
            (f.session.send (.message (.status current.status current.credentialRemoved))).finish
              .terminal }
        hub
  | park {wake : Handle} {current : Snapshot} (hstage : f.session.stage = .forwarding wake current [])
      (hterminal : current.status.isTerminal = false) :
      Move db hub f { f with session := f.session.go (.parked wake) } hub
  | leave (hstage : f.session.stage = .leaving) :
      Move db hub f { f with session := f.session.finish .machineGone }
        (hub.remove f.session.machine)
  /-- The session ends before it has told the status. -/
  | quit (ending : Session.Ending) (hover : f.session.isOver = false)
      (hending : ending ≠ .terminal) :
      Move db hub f { f with session := f.session.finish ending } hub
  | wake {handle : Handle} (hstage : f.session.stage = .parked handle) :
      Move db hub f { f with session := f.session.go .arming } hub
  | ping {handle : Handle} (hstage : f.session.stage = .parked handle) (now : Nat) :
      Move db hub f
        { f with
          session :=
            { f.session.send .ping with stage := .arming, pingAt := f.session.nextPing now } }
        hub
  | answer (hover : f.session.isOver = false) (payload : String) :
      Move db hub f { f with session := f.session.send (.pong payload) } hub

theorem isOver_of_stage {s : Session} {stage : Session.Stage} (h : s.stage = stage)
    (hstage : ∀ ending, stage ≠ .ended ending) : s.isOver = false := by
  unfold Session.isOver
  rw [h]
  cases stage <;> first | rfl | exact absurd rfl (hstage _)

theorem move_step (f : Follower) (db : Database) (hub : Hub) (fails : Bool) :
    Move db hub f (f.step db hub fails).1 (f.step db hub fails).2 := by
  obtain ⟨⟨machine, stage, cursor, pingAt, sent⟩, forwarded⟩ := f
  cases stage with
  | greeting snapshot =>
    cases fails
    · exact .greet rfl
    · exact .quit .aborted rfl nofun
  | arming => exact .arm rfl
  | looking wake =>
    cases fails
    · cases hread : db.snapshot machine with
      | error failure =>
        simp only [step, forwardedNext, Session.step, hread]
        exact .quit _ rfl nofun
      | ok current? =>
        cases current? with
        | none =>
          simp only [step, forwardedNext, Session.step, hread]
          exact .miss rfl hread
        | some current =>
          simp only [step, forwardedNext, Session.step, hread]
          exact .look rfl hread
    · exact .quit .aborted rfl nofun
  | reading wake current =>
    cases fails
    · exact .read rfl
    · exact .quit .aborted rfl nofun
  | forwarding wake current left =>
    cases left with
    | cons entry left =>
      cases fails
      · exact .forward rfl
      · exact .quit .aborted rfl nofun
    | nil =>
      cases hterminal : current.status.isTerminal with
      | true =>
        simp only [step, forwardedNext, Session.step, Session.conclude, hterminal]
        cases fails
        · exact .tell rfl hterminal
        · exact .quit _ rfl nofun
      | false =>
        simp only [step, forwardedNext, Session.step, Session.conclude, hterminal]
        cases fails <;> exact .park rfl hterminal
  | leaving => exact .leave rfl
  | parked wake => exact .idle
  | ended ending => exact .idle

theorem move_resume (f : Follower) (db : Database) (hub : Hub) (cause : Session.Wakeup)
    (fails : Bool) : Move db hub f (f.resume hub cause fails) hub := by
  unfold resume
  split
  · exact .idle
  · cases hstage : f.session.stage with
    | parked wake =>
      have hover : f.session.isOver = false := isOver_of_stage hstage nofun
      unfold Session.resume
      rw [hstage]
      cases cause with
      | signalled => exact .wake hstage
      | tick now =>
        cases fails
        · exact .ping hstage now
        · exact .quit _ hover nofun
      | viewerLeft => exact .quit _ hover nofun
      | shutdown => exact .quit _ hover nofun
    | _ =>
      have hsame : f.session.resume cause fails = f.session := by
        unfold Session.resume
        rw [hstage]
      rw [hsame]
      exact .idle

theorem move_answer (f : Follower) (db : Database) (hub : Hub) (payload : String) :
    Move db hub f { f with session := f.session.answer payload } hub := by
  unfold Session.answer
  cases hover : f.session.isOver with
  | true => exact .idle
  | false => exact .answer hover payload

theorem Move.hubChange {db : Database} {hub hub' : Hub} {f f' : Follower}
    (h : Move db hub f f' hub') : hub.Change hub' := by
  cases h <;> first | exact .same | exact .wait _ | exact .remove _

/-- A session stays with its machine. -/
theorem Move.machine_eq {db : Database} {hub hub' : Hub} {f f' : Follower}
    (h : Move db hub f f' hub') : f'.session.machine = f.session.machine := by
  cases h <;> rfl

end Follower

/-! ## Scenes -/

/-- The world with the sessions that follow its machines. -/
structure Scene where
  world : World
  followers : List Follower

/-- What can happen next. -/
inductive Act where
  | deed (d : Deed)
  /-- A session begins, with the snapshot that was read for it before. -/
  | join (id : MachineId) (snapshot : Snapshot) (now : Nat)
  /-- The n-th session makes a step. -/
  | step (n : Nat) (fails : Bool)
  /-- The n-th session goes on if it waits and something lets it go on. -/
  | resume (n : Nat) (cause : Session.Wakeup) (fails : Bool)
  /-- The n-th session answers a ping of its viewer. -/
  | answer (n : Nat) (payload : String)

/-- Whether an act is by a viewer, or a deed of some kind. -/
def Act.Within (allowed : Deed → Prop) : Act → Prop
  | .deed d => allowed d
  | _ => True

theorem Act.Within.imp {allowed allowed' : Deed → Prop} (h : ∀ d, allowed d → allowed' d)
    {a : Act} (ha : a.Within allowed) : a.Within allowed' := by
  cases a with
  | deed d => exact h d ha
  | _ => trivial

namespace Scene

theorem within_true (acts : List Act) : ∀ a ∈ acts, a.Within fun _ => True := by
  intro a _
  cases a <;> trivial

/-- A scene that nobody follows yet. -/
def opening (w : World) : Scene := ⟨w, []⟩

/-- The n-th session goes on, if there is one. -/
def turn (scene : Scene) (n : Nat) (move : Follower → Follower × Hub) : Scene :=
  match scene.followers[n]? with
  | some f =>
    { world := { scene.world with hub := (move f).2 }
      followers := scene.followers.set n (move f).1 }
  | none => scene

/-- The scene after an act. -/
def act (scene : Scene) : Act → Scene
  | .deed d => { scene with world := scene.world.deed d }
  | .join id snapshot now =>
    { scene with followers := scene.followers ++ [.start id snapshot now] }
  | .step n fails => scene.turn n fun f => f.step scene.world.database scene.world.hub fails
  | .resume n cause fails =>
    scene.turn n fun f => (f.resume scene.world.hub cause fails, scene.world.hub)
  | .answer n payload =>
    scene.turn n fun f => ({ f with session := f.session.answer payload }, scene.world.hub)

/-- The scene after some acts. -/
def play (scene : Scene) (acts : List Act) : Scene := acts.foldl act scene

@[simp] theorem play_nil (scene : Scene) : scene.play [] = scene := rfl

theorem play_cons (scene : Scene) (a : Act) (acts : List Act) :
    scene.play (a :: acts) = (scene.act a).play acts := rfl

theorem play_append (scene : Scene) (a b : List Act) :
    scene.play (a ++ b) = (scene.play a).play b := List.foldl_append

/-! ## Invariants -/

/--
What holds of the world (`I`) and of every session in it (`P`) is kept by all acts, deeds being
those that are `allowed`.
-/
structure Invariant (allowed : Deed → Prop) (I : World → Prop) (P : World → Follower → Prop) :
    Prop where
  deed : ∀ {w : World} {d : Deed}, allowed d → I w → I (w.deed d)
  hub : ∀ {w : World} {hub : Hub}, I w → I { w with hub }
  join : ∀ {w : World} (id : MachineId) (snapshot : Snapshot) (now : Nat), I w →
    P w (.start id snapshot now)
  kept : ∀ {w : World} {d : Deed} {f : Follower}, allowed d → I w → P w f → P (w.deed d) f
  beside : ∀ {w : World} {hub : Hub} {f : Follower}, w.hub.Change hub → I w → P w f →
    P { w with hub } f
  move : ∀ {w : World} {hub : Hub} {f f' : Follower}, Follower.Move w.database w.hub f f' hub →
    I w → P w f → P { w with hub } f'

/-- The world and every session of a scene satisfy `I` and `P`. -/
structure Holds (I : World → Prop) (P : World → Follower → Prop) (scene : Scene) : Prop where
  world : I scene.world
  followers : ∀ f ∈ scene.followers, P scene.world f

namespace Invariant

variable {allowed : Deed → Prop} {I : World → Prop} {P : World → Follower → Prop}

theorem turn (inv : Invariant allowed I P) {scene : Scene} (h : Holds I P scene) (n : Nat)
    {move : Follower → Follower × Hub}
    (hmove : ∀ f, Follower.Move scene.world.database scene.world.hub f (move f).1 (move f).2) :
    Holds I P (scene.turn n move) := by
  unfold Scene.turn
  cases hf : scene.followers[n]? with
  | none => exact h
  | some f =>
    have hmem : f ∈ scene.followers := List.mem_of_getElem? hf
    refine ⟨inv.hub h.world, ?_⟩
    intro g hg
    rcases List.mem_or_eq_of_mem_set hg with hg | rfl
    · exact inv.beside (hmove f).hubChange h.world (h.followers g hg)
    · exact inv.move (hmove f) h.world (h.followers f hmem)

theorem act (inv : Invariant allowed I P) {scene : Scene} (h : Holds I P scene) {a : Act}
    (ha : a.Within allowed) : Holds I P (scene.act a) := by
  cases a with
  | deed d =>
    refine ⟨inv.deed ha h.world, ?_⟩
    intro f hf
    exact inv.kept ha h.world (h.followers f hf)
  | join id snapshot now =>
    refine ⟨h.world, ?_⟩
    intro f hf
    rcases List.mem_append.mp hf with hf | hf
    · exact h.followers f hf
    · rw [List.mem_singleton.mp hf]
      exact inv.join id snapshot now h.world
  | step n fails => exact inv.turn h n fun f => f.move_step _ _ fails
  | resume n cause fails => exact inv.turn h n fun f => f.move_resume _ _ cause fails
  | answer n payload => exact inv.turn h n fun f => f.move_answer _ _ payload

/-- **What every act keeps holds after any acts.** -/
theorem play (inv : Invariant allowed I P) (scene : Scene) (h : Holds I P scene) {acts : List Act}
    (hacts : ∀ a ∈ acts, a.Within allowed) : Holds I P (scene.play acts) := by
  induction acts generalizing scene with
  | nil => exact h
  | cons a acts ih =>
    rw [play_cons]
    exact ih _ (inv.act h (hacts a List.mem_cons_self))
      fun b hb => hacts b (List.mem_cons_of_mem a hb)

end Invariant

end Scene

end Provisioner
