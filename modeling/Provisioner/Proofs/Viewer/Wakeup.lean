import Provisioner.Proofs.Store.Row
import Provisioner.Proofs.Viewer.Cursor

/-!
# No wake-up is lost

A session takes a handle, reads the status, reads the entries, and waits on the handle. Between any
two of these steps somebody may store something and wake the waiting sessions.

* A handle that was taken before a wake-up is woken by it, wherever its session stands
  (`Follower.Armed`).
* A handle that was taken after it is followed by both reads, so its session sees whatever was
  stored before the wake-up (`Follower.CatchesUp`, `Follower.Withdraws`).
-/

namespace Provisioner

/-! ## Handles of sessions -/

/-- The handle that a session has taken in the present round of its loop. -/
def Session.Stage.handle? : Session.Stage → Option Handle
  | .looking wake | .reading wake _ | .forwarding wake _ _ | .parked wake => some wake
  | .greeting _ | .arming | .leaving | .ended _ => none

theorem Hub.Change.not_signalled {hub hub' : Hub} (h : hub.Change hub') {wake : Handle}
    (hwake : hub'.isSignalled wake = false) : hub.isSignalled wake = false := by
  cases hold : hub.isSignalled wake with
  | false => rfl
  | true =>
    rw [h.isSignalled hold] at hwake
    cases hwake

namespace Follower

/-- The handle of a session is one that a wake-up of its machine reaches. -/
def Armed (hub : Hub) (f : Follower) : Prop :=
  ∀ wake, f.session.stage.handle? = some wake → hub.Holds f.session.machine wake

theorem Armed.change {hub hub' : Hub} {f : Follower} (h : f.Armed hub)
    (hchange : hub.Change hub') : f.Armed hub' := fun wake hwake => (h wake hwake).change hchange

theorem Armed.move {db : Database} {hub hub' : Hub} {f f' : Follower} (h : f.Armed hub)
    (hmove : Move db hub f f' hub') : f'.Armed hub' := by
  cases hmove with
  | arm hstage =>
    intro wake hwake
    cases hwake
    exact Hub.Holds.taken hub f.session.machine
  | look hstage _ | read hstage | forward hstage | park hstage _ =>
    intro wake hwake
    refine h wake ?_
    rw [hstage]
    exact hwake
  | idle | answer _ _ => exact h
  | _ => exact nofun

end Follower

/-- Where no run is under way, none makes a step. -/
theorem World.runStep_of_nil {w : World} (h : w.runs = []) (n : Nat)
    (fault : Option DatabaseFailure) : w.runStep n fault = w := by
  unfold runStep
  rw [h]
  rfl

/-- Runs begin by themselves, not by a deed. -/
theorem World.runs_deed {w : World} (h : w.runs = []) (d : Deed) : (w.deed d).runs = [] := by
  cases d with
  | record new =>
    simp only [deed]
    cases w.database.insert new with
    | error failure => exact h
    | ok result => exact h
  | run n fault =>
    simp only [deed]
    rw [runStep_of_nil h]
    exact h
  | _ => exact h

/-- **Every session can be woken, whatever happens.** -/
theorem Scene.armed :
    Invariant (fun _ => True) (fun w => w.runs = []) (fun w f => f.Armed w.hub) where
  deed _ hw := World.runs_deed hw _
  hub hw := hw
  join _ _ _ _ := nofun
  kept _ _ hf := hf.change (World.hubChange_deed _ _)
  beside hchange _ hf := hf.change hchange
  move hmove _ hf := hf.move hmove

/-! ## Entries after a notification -/

namespace Follower

variable {db db' : Database} {hub hub' : Hub} {f f' : Follower} {e : LogEntry}

/-- A session whose handle was not woken has sent a stored entry, or has read it. -/
structure CatchesUp (db : Database) (hub : Hub) (e : LogEntry) (f : Follower) : Prop where
  forwarding : ∀ {wake current left}, f.session.stage = .forwarding wake current left →
    hub.isSignalled wake = false → e ∈ db.log → e ∈ f.forwarded ∨ e ∈ left
  parked : ∀ {wake}, f.session.stage = .parked wake → hub.isSignalled wake = false →
    e ∈ db.log → e ∈ f.forwarded

/-- The handle that a session has taken, if it has one, was woken. -/
def Woken (hub : Hub) (f : Follower) : Prop :=
  ∀ wake, f.session.stage.handle? = some wake → hub.isSignalled wake = true

theorem Woken.not_unsignalled (h : f.Woken hub) {stage : Session.Stage}
    (hstage : f.session.stage = stage) {wake : Handle} (hhandle : stage.handle? = some wake) :
    ¬hub.isSignalled wake = false := by
  rw [h wake (hstage ▸ hhandle)]
  exact Bool.noConfusion

/-- Right after a notification nobody holds a handle that was not woken. -/
theorem Woken.catchesUp (h : f.Woken hub) : CatchesUp db hub e f where
  forwarding hstage hwake := absurd hwake (h.not_unsignalled hstage rfl)
  parked hstage hwake := absurd hwake (h.not_unsignalled hstage rfl)

theorem CatchesUp.change (h : CatchesUp db hub e f) (hlog : e ∈ db'.log → e ∈ db.log)
    (hchange : hub.Change hub') : CatchesUp db' hub' e f where
  forwarding hstage hwake he := h.forwarding hstage (hchange.not_signalled hwake) (hlog he)
  parked hstage hwake he := h.parked hstage (hchange.not_signalled hwake) (hlog he)

/-- The entries are read after the handle was taken, so that the entry is among them. -/
theorem CatchesUp.move (h : CatchesUp db hub e f) (hf : f.Sound db)
    (hmachine : e.machine = f.session.machine) (hmove : Move db hub f f' hub') :
    CatchesUp db hub' e f' := by
  have hkept : CatchesUp db hub e f' := by
    cases hmove with
    | idle => exact h
    | read hstage =>
      refine ⟨?_, nofun⟩
      intro wake current left hnext _ he
      cases hnext
      -- what lies at or below the cursor was sent before, and the rest is read now
      by_cases hcursor : e.id ≤ f.session.cursor
      · exact Or.inl (hf.complete e he hmachine hcursor)
      · exact Or.inr (Database.mem_entriesAfter.mpr ⟨he, hmachine, Int.not_le.mp hcursor⟩)
    | forward hstage =>
      refine ⟨?_, nofun⟩
      intro wake current left hnext hwake he
      cases hnext
      rcases h.forwarding hstage hwake he with hsent | hleft
      · exact Or.inl (List.mem_append_left _ hsent)
      rcases List.mem_cons.mp hleft with rfl | hleft
      · exact Or.inl (List.mem_append_right _ (List.mem_singleton.mpr rfl))
      · exact Or.inr hleft
    | park hstage _ =>
      refine ⟨nofun, ?_⟩
      intro wake hnext hwake he
      cases hnext
      rcases h.forwarding hstage hwake he with hsent | hleft
      · exact hsent
      · cases hleft
    | answer _ _ => exact ⟨h.forwarding, h.parked⟩
    | _ => exact ⟨nofun, nofun⟩
  exact hkept.change id hmove.hubChange

end Follower

/-- After a notification every session catches up with an entry that was stored before. -/
theorem Scene.catchesUp (e : LogEntry) :
    Invariant (fun _ => True)
      (fun w => w.database.LogOrdered ∧ e.id < w.database.nextEntry)
      (fun w f => f.Faithful w.database ∧
        (e.machine = f.session.machine → f.CatchesUp w.database w.hub e)) where
  deed {w d} _ hw :=
    ⟨(w.logChange_deed d).logOrdered hw.1, Int.lt_of_lt_of_le hw.2 (w.logChange_deed d).next_le⟩
  hub hw := hw
  join id snapshot now hw := ⟨faithful.join id snapshot now hw.1, fun _ => ⟨nofun, nofun⟩⟩
  kept {w d f} hd hw hf :=
    ⟨faithful.kept hd hw.1 hf.1, fun hmachine =>
      (hf.2 hmachine).change (fun he => (w.logChange_deed d).mem_of_lt he hw.2)
        (w.hubChange_deed d)⟩
  beside hchange _ hf := ⟨hf.1, fun hmachine => (hf.2 hmachine).change id hchange⟩
  move {w hub f f'} hmove hw hf := by
    refine ⟨faithful.move hmove hw.1 hf.1, ?_⟩
    intro hmachine
    rw [hmove.machine_eq] at hmachine
    exact (hf.2 hmachine).move hf.1.sound hmachine hmove

/-! ## Machines that are not being provisioned -/

/-- Whether a deed may show a machine as being provisioned again. -/
def Deed.Reopens (id : MachineId) : Deed → Prop
  | .write other call => other = id ∧ call = .setStatus .provisioning
  | .record new => new.id = id
  | .restart other => other = id
  | .erase _ | .notify _ | .remove _ | .run _ _ => False

/-- No row shows a machine as being provisioned. -/
def Database.Settled (db : Database) (id : MachineId) : Prop :=
  db.statusOf? id ≠ some MachineStatus.provisioning.word

namespace Database.Settled

variable {db : Database} {id : MachineId}

theorem of_terminal (db : Database) (id : MachineId) {status : MachineStatus}
    (hstatus : status.isTerminal = true) : (db.setStatus id status).Settled id := by
  unfold Settled
  rw [statusOf?_setStatus]
  intro h
  obtain ⟨_, _, hword⟩ := Option.map_eq_some_iff.mp h
  exact MachineStatus.isTerminal_iff.mp hstatus (MachineStatus.word_injective hword)

theorem of_erase (db : Database) (id : MachineId) : (db.erase id).2.Settled id := by
  unfold Settled
  rw [statusOf?_erase_self]
  exact nofun

theorem agreesOn {db' : Database} (h : db.Settled id) (hagree : AgreesOn id db db') :
    db'.Settled id := by
  unfold Settled
  rw [hagree.statusOf?_eq]
  exact h

theorem perform (h : db.Settled id) {other : MachineId} {call : Write}
    (hcall : ¬(Deed.write other call).Reopens id) : (db.perform other call).2.Settled id := by
  by_cases hne : id = other
  · subst hne
    cases hset : call.setsStatus with
    | false =>
      unfold Settled
      rw [statusOf?_perform db id hset]
      exact h
    | true =>
      cases call with
      | setStatus status =>
        refine of_terminal db id (MachineStatus.isTerminal_iff.mpr ?_)
        rintro rfl
        exact hcall ⟨rfl, rfl⟩
      | _ => cases hset
  · exact h.agreesOn (.perform db hne call)

/-- **Only what reopens a machine shows it as being provisioned again.** -/
theorem deed {w : World} {d : Deed} (h : w.database.Settled id) (hruns : w.runs = [])
    (hd : ¬d.Reopens id) : (w.deed d).database.Settled id := by
  cases d with
  | write other call => exact h.perform hd
  | record new =>
    simp only [World.deed]
    cases hinsert : w.database.insert new with
    | error failure => exact h
    | ok result => exact h.agreesOn (.insert hinsert (Ne.symm hd))
  | restart other => exact h.agreesOn (.beginReprovision _ (Ne.symm hd))
  | erase other =>
    by_cases hne : id = other
    · subst hne
      exact of_erase _ _
    · exact h.agreesOn (.erase _ hne)
  | notify other => exact h
  | remove other => exact h
  | run n fault =>
    simp only [World.deed]
    rw [World.runStep_of_nil hruns]
    exact h

/-- A snapshot that is read shows a terminal status. -/
theorem isTerminal (h : db.Settled id) {current : Snapshot}
    (hread : db.snapshot id = .ok (some current)) : current.status.isTerminal = true := by
  refine MachineStatus.isTerminal_iff.mpr ?_
  intro hprovisioning
  apply h
  rw [statusOf?_of_snapshot hread, hprovisioning]

end Database.Settled

/-! ## The end of a session -/

namespace Follower

variable {db db' : Database} {hub hub' : Hub} {f f' : Follower}

/-- A session whose handle was not woken does not wait, and has not read that it should. -/
structure Withdraws (hub : Hub) (f : Follower) : Prop where
  reading : ∀ {wake current}, f.session.stage = .reading wake current →
    hub.isSignalled wake = false → current.status.isTerminal = true
  forwarding : ∀ {wake current left}, f.session.stage = .forwarding wake current left →
    hub.isSignalled wake = false → current.status.isTerminal = true
  parked : ∀ {wake}, f.session.stage = .parked wake → hub.isSignalled wake = true

theorem Woken.withdraws (h : f.Woken hub) : Withdraws hub f where
  reading hstage hwake := absurd hwake (h.not_unsignalled hstage rfl)
  forwarding hstage hwake := absurd hwake (h.not_unsignalled hstage rfl)
  parked hstage := h _ (congrArg Session.Stage.handle? hstage)

theorem Withdraws.change (h : Withdraws hub f) (hchange : hub.Change hub') :
    Withdraws hub' f where
  reading hstage hwake := h.reading hstage (hchange.not_signalled hwake)
  forwarding hstage hwake := h.forwarding hstage (hchange.not_signalled hwake)
  parked hstage := hchange.isSignalled (h.parked hstage)

/-- The status is read after the handle was taken, so that the session concludes. -/
theorem Withdraws.move (h : Withdraws hub f) (hdb : db.Settled f.session.machine)
    (hmove : Move db hub f f' hub') : Withdraws hub' f' := by
  have hkept : Withdraws hub f' := by
    cases hmove with
    | idle => exact h
    | look hstage hread =>
      refine ⟨?_, nofun, nofun⟩
      intro wake current hnext _
      cases hnext
      exact hdb.isTerminal hread
    | read hstage =>
      refine ⟨nofun, ?_, nofun⟩
      intro wake current left hnext hwake
      cases hnext
      exact h.reading hstage hwake
    | forward hstage =>
      refine ⟨nofun, ?_, nofun⟩
      intro wake current left hnext hwake
      cases hnext
      exact h.forwarding hstage hwake
    | @park wake current hstage hterminal =>
      -- a session parks only if the status that it read is not terminal
      refine ⟨nofun, nofun, ?_⟩
      intro wake hnext
      cases hnext
      cases hwake : hub.isSignalled wake with
      | true => rfl
      | false =>
        rw [h.forwarding hstage hwake] at hterminal
        cases hterminal
    | answer _ _ => exact ⟨h.reading, h.forwarding, h.parked⟩
    | _ => exact ⟨nofun, nofun, nofun⟩
  exact hkept.change hmove.hubChange

end Follower

/-- A settled machine stays so until it is reopened. -/
theorem Scene.settled (id : MachineId) :
    Invariant (fun d => ¬d.Reopens id) (fun w => w.database.Settled id ∧ w.runs = [])
      (fun w f => f.Armed w.hub) where
  deed hd hw := ⟨hw.1.deed hw.2 hd, World.runs_deed hw.2 _⟩
  hub hw := hw
  join id snapshot now hw := armed.join id snapshot now hw.2
  kept _ hw hf := armed.kept trivial hw.2 hf
  beside hchange hw hf := armed.beside hchange hw.2 hf
  move hmove hw hf := armed.move hmove hw.2 hf

/-- Once a settled machine was notified no session waits until it is reopened. -/
theorem Scene.withdraws (id : MachineId) :
    Invariant (fun d => ¬d.Reopens id) (fun w => w.database.Settled id ∧ w.runs = [])
      (fun w f => f.session.machine = id → f.Withdraws w.hub) where
  deed hd hw := (settled id).deed hd hw
  hub hw := hw
  join _ _ _ _ _ := ⟨nofun, nofun, nofun⟩
  kept {w d f} _ _ hf hmachine := (hf hmachine).change (w.hubChange_deed d)
  beside hchange _ hf hmachine := (hf hmachine).change hchange
  move {w hub f f'} hmove hw hf := by
    intro hmachine
    rw [hmove.machine_eq] at hmachine
    refine (hf hmachine).move ?_ hmove
    rw [hmachine]
    exact hw.1

/-! ## Waiting sessions -/

/-- A world with some tables in which nobody waits and nothing is under way. -/
def World.storing (database : Database) : World := { World.empty with database }

namespace Scene

/-- A session of a machine waits on a handle that was not woken. -/
def Waits (scene : Scene) (id : MachineId) (f : Follower) : Prop :=
  f ∈ scene.followers ∧ f.session.machine = id ∧
    ∃ wake, f.session.stage = .parked wake ∧ scene.world.hub.isSignalled wake = false

/-- The sessions of a machine when those who wait for it have just been woken. -/
theorem woken_of_armed {scene : Scene} {id : MachineId} {d : Deed}
    (h : ∀ f ∈ scene.followers, f.Armed scene.world.hub)
    (hd : d = .notify id ∨ d = .remove id) {f : Follower} (hf : f ∈ scene.followers)
    (hmachine : f.session.machine = id) : f.Woken (scene.world.deed d).hub := by
  intro wake hwake
  have hholds : scene.world.hub.Holds f.session.machine wake := h f hf wake hwake
  rw [hmachine] at hholds
  rcases hd with rfl | rfl
  · exact hholds.isSignalled_notify
  · exact hholds.isSignalled_remove

/-- An entry that was stored before a notification is not missed. -/
theorem Waits.mem_forwarded {db : Database} {id : MachineId} (hdb : db.LogOrdered)
    {before after : List Act} {e : LogEntry}
    (he : e ∈ ((opening (.storing db)).play before).world.database.entriesOf id) {f : Follower}
    (hf : ((opening (.storing db)).play (before ++ .deed (.notify id) :: after)).Waits id f)
    (hstored :
      e ∈ ((opening (.storing db)).play (before ++ .deed (.notify id) :: after)).world.database.entriesOf id) :
    f.Greeted ∧ e ∈ f.forwarded := by
  obtain ⟨hmem, hmachine⟩ := Database.mem_entriesOf.mp he
  have harmed := armed.play (opening (.storing db)) ⟨rfl, nofun⟩ (within_true before)
  have hfaithful := faithful.play (opening (.storing db)) ⟨hdb, nofun⟩ (within_true before)
  rw [play_append, play_cons] at hf hstored
  generalize (opening (.storing db)).play before = scene at *
  have hcaught : ∀ g ∈ scene.followers, e.machine = g.session.machine →
      g.CatchesUp scene.world.database (scene.world.hub.notify id) e := by
    intro g hg hid
    exact (woken_of_armed harmed.followers (Or.inl rfl) hg (hid.symm.trans hmachine)).catchesUp
  have hend := (catchesUp e).play (scene.act (.deed (.notify id)))
    ⟨⟨hfaithful.world, hfaithful.world.lt_next e hmem⟩,
      fun g hg => ⟨hfaithful.followers g hg, hcaught g hg⟩⟩ (within_true after)
  obtain ⟨hfollower, hid, wake, hstage, hwake⟩ := hf
  obtain ⟨hf, hcatches⟩ := hend.followers f hfollower
  have hspoken := hf.spoken
  unfold Follower.Spoken at hspoken
  rw [hstage] at hspoken
  exact ⟨hspoken, (hcatches (hmachine.trans hid.symm)).parked hstage hwake
    (Database.mem_entriesOf.mp hstored).1⟩

/--
Nobody waits for a machine once a deed has settled it and those who waited were woken, until it is
reopened.
-/
theorem not_waits {db : Database} {id : MachineId} {d wakeUp : Deed}
    {before middle after : List Act}
    (hsettled : (((opening (.storing db)).play before).world.deed d).database.Settled id)
    (hwakeUp : wakeUp = .notify id ∨ wakeUp = .remove id)
    (hacts : ∀ a ∈ middle ++ after, a.Within fun d => ¬d.Reopens id) (f : Follower) :
    ¬((opening (.storing db)).play
      (before ++ .deed d :: (middle ++ .deed wakeUp :: after))).Waits id f := by
  obtain ⟨hmiddle, hafter⟩ := List.forall_mem_append.mp hacts
  have harmed := armed.play (opening (.storing db)) ⟨rfl, nofun⟩ (within_true before)
  have hdone := armed.act harmed (a := .deed d) trivial
  -- the machine need not have been settled before `d`, so the run lemma starts behind it
  have hmid := (settled id).play (((opening (.storing db)).play before).act (.deed d))
    ⟨⟨hsettled, hdone.world⟩, hdone.followers⟩ hmiddle
  rw [play_append, play_cons, play_append, play_cons]
  generalize (((opening (.storing db)).play before).act (.deed d)).play middle = scene' at hmid ⊢
  have hreopens : ¬wakeUp.Reopens id := by
    rcases hwakeUp with rfl | rfl <;> exact not_false
  have hwithdraws : ∀ g ∈ scene'.followers, g.session.machine = id →
      g.Withdraws (scene'.world.deed wakeUp).hub := by
    intro g hg hid
    exact (woken_of_armed hmid.followers hwakeUp hg hid).withdraws
  have hend := (withdraws id).play (scene'.act (.deed wakeUp))
    ⟨(settled id).deed hreopens hmid.world, hwithdraws⟩ hafter
  rintro ⟨hf, hmachine, wake, hstage, hwake⟩
  rw [(hend.followers f hf hmachine).parked hstage] at hwake
  cases hwake

end Scene

/--
**No wake-up is lost.** Sessions, writers and notifiers act in any order, from any tables. Whoever
waits on a handle that was not woken

* has sent every entry of its machine that was stored before some notification and still is;
* does not wait if a terminal status was written and a notification followed, or if the machine was
  deleted and its generation removed, and the machine was not reopened since.
-/
theorem Scene.no_lost_wakeup {db : Database} (hdb : db.LogOrdered) (id : MachineId)
    (before : List Act) :
    (∀ after e f, e ∈ ((opening (.storing db)).play before).world.database.entriesOf id →
      ((opening (.storing db)).play (before ++ .deed (.notify id) :: after)).Waits id f →
      e ∈ ((opening (.storing db)).play
        (before ++ .deed (.notify id) :: after)).world.database.entriesOf id →
      e ∈ f.forwarded ∧ Frame.message (.log e.line) ∈ f.session.sent) ∧
    (∀ status middle after, MachineStatus.isTerminal status = true →
      (∀ a ∈ middle ++ after, a.Within fun d => ¬d.Reopens id) → ∀ f,
      ¬((opening (.storing db)).play (before ++ .deed (.write id (.setStatus status)) ::
        (middle ++ .deed (.notify id) :: after))).Waits id f) ∧
    (∀ middle after, (∀ a ∈ middle ++ after, a.Within fun d => ¬d.Reopens id) → ∀ f,
      ¬((opening (.storing db)).play (before ++ .deed (.erase id) ::
        (middle ++ .deed (.remove id) :: after))).Waits id f) := by
  refine ⟨?_, ?_, ?_⟩
  · intro after e f he hf hstored
    obtain ⟨hgreeted, hforwarded⟩ := hf.mem_forwarded hdb he hstored
    exact ⟨hforwarded, hgreeted.mem_sent hforwarded⟩
  · intro status middle after hstatus hacts f
    refine not_waits ?_ (Or.inl rfl) hacts f
    exact Database.Settled.of_terminal _ id hstatus
  · intro middle after hacts f
    refine not_waits ?_ (Or.inr rfl) hacts f
    exact Database.Settled.of_erase _ id

/-- A machine is recorded, a session comes to wait for it, and a line is stored. -/
def Scene.lineStored : List Act :=
  [.deed (.record ⟨1, "web", "192.0.2.1", "hetzner", .empty⟩),
    .join 1 ⟨1, "web", "192.0.2.1", .provisioning, false⟩ 0, .step 0 false, .step 0 false,
    .step 0 false, .step 0 false, .step 0 false, .deed (.write 1 (.append "Installing"))]

/-- The session is woken and goes round its loop once. -/
def Scene.roundMade : List Act :=
  [.resume 0 .signalled false, .step 0 false, .step 0 false, .step 0 false, .step 0 false,
    .step 0 false]

theorem Scene.no_lost_wakeup_lineStored :
    Database.empty.LogOrdered ∧
    (∃ f e, e ∈ ((opening (.storing .empty)).play lineStored).world.database.entriesOf 1 ∧
      ((opening (.storing .empty)).play (lineStored ++ .deed (.notify 1) :: roundMade)).Waits 1 f ∧
      e ∈ f.forwarded ∧ Frame.message (.log e.line) ∈ f.session.sent) ∧
    (∀ f, ¬((opening (.storing .empty)).play (lineStored ++ .deed (.write 1 (.setStatus .ready)) ::
      ([] ++ .deed (.notify 1) :: roundMade))).Waits 1 f) ∧
    (∀ f, ¬((opening (.storing .empty)).play (lineStored ++ .deed (.erase 1) ::
      ([] ++ .deed (.remove 1) :: roundMade))).Waits 1 f) := by
  have hacts : ∀ a ∈ [] ++ roundMade, a.Within fun d => ¬d.Reopens 1 := by
    simp [roundMade, Act.Within]
  obtain ⟨hentries, hstatus, herase⟩ :=
    no_lost_wakeup Database.logOrdered_empty 1 lineStored
  refine ⟨Database.logOrdered_empty, ?_, hstatus .ready [] roundMade rfl hacts,
    herase [] roundMade hacts⟩
  exact ⟨_, _, List.mem_cons_self, ⟨List.mem_cons_self, rfl, _, rfl, rfl⟩,
    hentries roundMade _ _ List.mem_cons_self ⟨List.mem_cons_self, rfl, _, rfl, rfl⟩
      List.mem_cons_self⟩

end Provisioner
