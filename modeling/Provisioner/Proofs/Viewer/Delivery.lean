import Provisioner.Proofs.Run.SoleWriter
import Provisioner.Proofs.Viewer.Cursor

/-!
# What a session has told its viewer at its end

A session that ends because the status is terminal has read that status before it read the entries
behind its cursor. The run of the machine writes the status after its last line. So the session has
sent every stored entry of the machine, once each and in their order, and then the last status.

`Follower.Follows` is the invariant of one session; `Scene.follows` keeps it along all that happens
before and during the run.
-/

namespace Provisioner

open Database

/-- The row of a machine shows a status and whether the provider's key was revoked. -/
def Database.Shows (db : Database) (id : MachineId) (status : MachineStatus) (removed : Bool) :
    Prop :=
  ∃ row, db.find? id = some row ∧ row.status = status.word ∧ row.credentialRemoved = removed

namespace Follower

/-- A session that has read a terminal status has read the last one. -/
def SeesLast (begun : Prop) (w : World) (id : MachineId) (current : Snapshot) : Prop :=
  current.status.isTerminal = true →
    (begun ∧ w.IsOver id) ∧ w.database.Shows id current.status current.credentialRemoved

/-- What a session of a machine has sent and read is stored, and the last of it is all there is. -/
structure Follows (id : MachineId) (begun : Prop) (w : World) (f : Follower) : Prop where
  stored : ∀ e ∈ f.forwarded, e ∈ w.database.entriesOf id
  reading : ∀ {wake current}, f.session.stage = .reading wake current →
    SeesLast begun w id current
  left : ∀ {wake current left}, f.session.stage = .forwarding wake current left →
    ∀ e ∈ left, e ∈ w.database.entriesOf id
  forwarding : ∀ {wake current left}, f.session.stage = .forwarding wake current left →
    SeesLast begun w id current
  all : ∀ {wake current left}, f.session.stage = .forwarding wake current left →
    current.status.isTerminal = true →
    ∀ e ∈ w.database.entriesOf id, f.session.cursor < e.id → e ∈ left
  ended : f.session.stage = .ended .terminal → ∃ status removed, f.Concluded status removed ∧
    (begun ∧ w.IsOver id) ∧ w.database.Shows id status removed ∧
    ∀ e ∈ w.database.entriesOf id, e ∈ f.forwarded

variable {id : MachineId} {begun : Prop} {w w' : World} {f f' : Follower}

theorem SeesLast.continues {current : Snapshot} (h : SeesLast begun w id current)
    (hw : World.Continues id begun w w') : SeesLast begun w' id current := by
  intro hterminal
  obtain ⟨⟨hbegun, hover⟩, row, hrow, hshows⟩ := h hterminal
  obtain ⟨hagree, hover'⟩ := hw.settled hbegun hover
  exact ⟨⟨hbegun, hover'⟩, row, hagree.row.trans hrow, hshows⟩

/-- What was read stays as it is, or the run was not over when it was read. -/
theorem Follows.continues (h : f.Follows id begun w) (hw : World.Continues id begun w w') :
    f.Follows id begun w' where
  stored e he := hw.entries e (h.stored e he)
  reading hstage := (h.reading hstage).continues hw
  left hstage e he := hw.entries e (h.left hstage e he)
  forwarding hstage := (h.forwarding hstage).continues hw
  all hstage hterminal := by
    obtain ⟨⟨hbegun, hover⟩, -⟩ := h.forwarding hstage hterminal
    rw [(hw.settled hbegun hover).1.entries]
    exact h.all hstage hterminal
  ended hstage := by
    obtain ⟨status, removed, hconcluded, ⟨hbegun, hover⟩, ⟨row, hrow, hshows⟩, hall⟩ :=
      h.ended hstage
    obtain ⟨hagree, hover'⟩ := hw.settled hbegun hover
    refine ⟨status, removed, hconcluded, ⟨hbegun, hover'⟩, ⟨row, hagree.row.trans hrow, hshows⟩, ?_⟩
    rw [hagree.entries]
    exact hall

/-- Before the run begins no session has read a terminal status. -/
theorem Follows.begin (h : f.Follows id False w) (run : Run) (script : Script) :
    f.Follows id True (w.start run script) where
  stored := h.stored
  reading hstage hterminal := (h.reading hstage hterminal).1.1.elim
  left := h.left
  forwarding hstage hterminal := (h.forwarding hstage hterminal).1.1.elim
  all hstage hterminal := (h.forwarding hstage hterminal).1.1.elim
  ended hstage := by
    obtain ⟨_, _, _, ⟨hbegun, _⟩, _⟩ := h.ended hstage
    exact hbegun.elim

/-- A status that is read as terminal is the last one: the run is over. -/
theorem seesLast_of_snapshot (hw : w.Attended id begun) {current : Snapshot}
    (hread : w.database.snapshot id = .ok (some current)) : SeesLast begun w id current := by
  intro hterminal
  obtain ⟨row, hrow, hstatus, hremoved⟩ := find?_of_snapshot hread
  refine ⟨hw.status.resolve_left ?_, row, hrow, hstatus, hremoved⟩
  intro hprovisioning
  rw [statusOf?_of_snapshot hread] at hprovisioning
  exact MachineStatus.isTerminal_iff.mp hterminal
    (MachineStatus.word_injective (Option.some.inj hprovisioning))

/-- **A session keeps following.** -/
theorem Follows.move {hub : Hub} (h : f.Follows id begun w) (hw : w.Attended id begun)
    (hf : f.Faithful w.database) (hid : f.session.machine = id)
    (hmove : Move w.database w.hub f f' hub) : f'.Follows id begun w := by
  subst hid
  cases hmove with
  | idle => exact h
  | look hstage hread =>
    refine ⟨h.stored, ?_, nofun, nofun, nofun, nofun⟩
    intro wake current hnext
    cases hnext
    exact seesLast_of_snapshot hw hread
  | read hstage =>
    refine ⟨h.stored, nofun, ?_, ?_, ?_, nofun⟩
    · intro wake current left hnext e he
      cases hnext
      obtain ⟨hmem, hmachine, -⟩ := mem_entriesAfter.mp he
      exact mem_entriesOf.mpr ⟨hmem, hmachine⟩
    · intro wake current left hnext
      cases hnext
      exact h.reading hstage
    · intro wake current left hnext _ e he hcursor
      cases hnext
      obtain ⟨hmem, hmachine⟩ := mem_entriesOf.mp he
      exact mem_entriesAfter.mpr ⟨hmem, hmachine, hcursor⟩
  | @forward wake current e left hstage =>
    refine ⟨?_, nofun, ?_, ?_, ?_, nofun⟩
    · intro x hx
      rcases List.mem_append.mp hx with hx | hx
      · exact h.stored x hx
      · rw [List.mem_singleton.mp hx]
        exact h.left hstage e List.mem_cons_self
    · intro _ _ _ hnext x hx
      cases hnext
      exact h.left hstage x (List.mem_cons_of_mem e hx)
    · intro _ _ _ hnext
      cases hnext
      exact h.forwarding hstage
    · intro _ _ _ hnext hterminal x hx hcursor
      cases hnext
      replace hcursor : e.id < x.id := hcursor
      -- the cursor is now at `e`, which lay above the old one
      have habove := (hf.sound.pending _ _ _ hstage).above e List.mem_cons_self
      have hmem := h.all hstage hterminal x hx (Int.lt_trans habove hcursor)
      rcases List.mem_cons.mp hmem with rfl | hmem
      · omega
      · exact hmem
  | @tell wake current hstage hterminal =>
    refine ⟨h.stored, nofun, nofun, nofun, nofun, ?_⟩
    intro _
    obtain ⟨hover, hshows⟩ := h.forwarding hstage hterminal
    have hspoken := hf.spoken
    unfold Spoken at hspoken
    rw [hstage] at hspoken
    refine ⟨_, _, Greeted.conclude hspoken _ _, hover, hshows, ?_⟩
    -- an entry behind the cursor would still have to be sent, and nothing is left
    intro e he
    obtain ⟨hmem, hmachine⟩ := mem_entriesOf.mp he
    by_cases hcursor : e.id ≤ f.session.cursor
    · exact hf.sound.complete e hmem hmachine hcursor
    · cases h.all hstage hterminal e he (Int.not_le.mp hcursor)
  | quit ending _ hending =>
    refine ⟨h.stored, nofun, nofun, nofun, nofun, ?_⟩
    intro hended
    cases hended
    exact absurd rfl hending
  | answer hover payload =>
    refine ⟨h.stored, h.reading, h.left, h.forwarding, h.all, ?_⟩
    intro hended
    unfold Session.isOver at hover
    replace hended : f.session.stage = .ended .terminal := hended
    rw [hended] at hover
    cases hover
  | _ => exact ⟨h.stored, nofun, nofun, nofun, nofun, nofun⟩

end Follower

/-- **Whatever happens before and during the run, every session of the machine follows it.** -/
theorem Scene.follows (id : MachineId) (begun : Prop) :
    Invariant (fun d => d.Fits id begun) (fun w => w.Attended id begun)
      (fun w f => f.Faithful w.database ∧
        (f.session.machine = id → f.Follows id begun w)) where
  deed hd hw := (hw.deed hd).1
  hub hw := ⟨hw.ordered, hw.sole, hw.status⟩
  join machine snapshot now hw :=
    ⟨faithful.join machine snapshot now hw.ordered, fun _ =>
      ⟨nofun, nofun, nofun, nofun, nofun, nofun⟩⟩
  kept hd hw hf :=
    ⟨faithful.kept trivial hw.ordered hf.1, fun hid => (hf.2 hid).continues (hw.deed hd).2⟩
  beside {w hub f} _ _ hf :=
    ⟨hf.1, fun hid => (hf.2 hid).continues ⟨fun _ he => he, fun _ hover => ⟨.refl _ _, hover⟩⟩⟩
  move {w hub f f'} hmove hw hf := by
    refine ⟨faithful.move hmove hw.ordered hf.1, ?_⟩
    intro hid
    rw [hmove.machine_eq] at hid
    exact ((hf.2 hid).move hw hf.1 hid hmove).continues
      ⟨fun _ he => he, fun _ hover => ⟨.refl _ _, hover⟩⟩

/-! ## The end of a session -/

/-- A run begins. -/
def Scene.begin (scene : Scene) (run : Run) (script : Script) : Scene :=
  { scene with world := scene.world.start run script }

/-- What a viewer has been told of a machine: all of its log and its last status. -/
structure Session.Complete (s : Session) (db : Database) (row : Machine) (status : MachineStatus) :
    Prop where
  found : db.find? s.machine = some row
  shown : row.status = status.word
  /-- The greeting, one message for each stored entry, the status. -/
  messages : ∃ snapshot, s.messages =
    .init snapshot :: ((db.entriesOf s.machine).map fun e => .log e.line) ++
      [.status status row.credentialRemoved]
  sorted : (db.entriesOf s.machine).Pairwise (·.id < ·.id)
  /-- Nothing but the close frame follows the status. -/
  closed : ∃ frames, Frame.close ∉ frames ∧
    s.sent.reverse = frames ++ [.message (.status status row.credentialRemoved), .close]

theorem Follower.Follows.complete {id : MachineId} {begun : Prop} {w : World} {f : Follower}
    (h : f.Follows id begun w) (hw : w.database.LogOrdered) (hf : f.Sound w.database)
    (hid : f.session.machine = id) (hended : f.session.stage = .ended .terminal) :
    w.IsOver id ∧ ∃ row status, f.session.Complete w.database row status := by
  subst hid
  obtain ⟨status, removed, ⟨hmessages, hclosed⟩, ⟨-, hover⟩, ⟨row, hrow, hstatus, rfl⟩, hall⟩ :=
    h.ended hended
  have hsorted := hw.sorted_entriesOf f.session.machine
  have hentries : f.forwarded = w.database.entriesOf f.session.machine :=
    eq_of_sorted hf.sorted hsorted fun e => ⟨h.stored e, hall e⟩
  refine ⟨hover, row, status, hrow, hstatus, ?_, hsorted, ?_⟩
  · obtain ⟨snapshot, hmessages⟩ := hmessages
    refine ⟨snapshot, ?_⟩
    rw [hmessages]
    unfold lines
    rw [hentries]
  · obtain ⟨frames, hsent, hopen⟩ := hclosed
    refine ⟨frames.reverse, fun h => hopen (List.mem_reverse.mp h), ?_⟩
    rw [hsent, List.reverse_cons, List.reverse_cons, List.append_assoc]
    rfl

/-- What viewers are told behind the greeting hangs on the machine alone. -/
theorem Session.Complete.messages_tail_eq {s s' : Session} {db : Database} {row row' : Machine}
    {status status' : MachineStatus} (h : s.Complete db row status)
    (h' : s'.Complete db row' status') (hid : s.machine = s'.machine) :
    s.messages.tail = s'.messages.tail := by
  have hrow : row = row' := by
    have hfound := h.found
    rw [hid, h'.found] at hfound
    exact (Option.some.inj hfound).symm
  have hstatus : status = status' := by
    refine MachineStatus.word_injective ?_
    rw [← h.shown, ← h'.shown, hrow]
  obtain ⟨snapshot, hmessages⟩ := h.messages
  obtain ⟨snapshot', hmessages'⟩ := h'.messages
  rw [hmessages, hmessages', hid, hrow, hstatus]
  rfl

/--
**A session that ends with the run has told all of it.** A machine is being provisioned; sessions
begin and act in any order with its run and with whatever is done to other machines, and any write
of the run may fail. Once a session has ended because the status is terminal, the run writes nothing
more, and the session has sent the greeting, the line of every stored entry once and in their order,
and then the status that is stored. So any two such sessions have sent the same after the greeting.
-/
theorem Scene.complete_of_terminal {w : World} {run : Run} {equipment : Equipment}
    {c : Circumstances} {before during : List Act} (hordered : w.database.LogOrdered)
    (hprovisioning :
      w.database.statusOf? run.machine = some MachineStatus.provisioning.word)
    (hothers : ∀ active ∈ w.runs, active.run.machine = run.machine →
      active.script.mayWrite = false)
    (hbefore : ∀ a ∈ before, a.Within fun d => d.Fits run.machine False)
    (hduring : ∀ a ∈ during, a.Within fun d => d.Spares run.machine) :
    let scene :=
      (((opening w).play before).begin run (run.script equipment c)).play during
    (∀ f ∈ scene.followers, f.session.machine = run.machine →
      f.session.stage = .ended .terminal →
      (∀ active ∈ scene.world.runs, active.run.machine = run.machine →
        active.script.mayWrite = false) ∧
      ∃ row status, f.session.Complete scene.world.database row status) ∧
    ∀ f ∈ scene.followers, ∀ g ∈ scene.followers, f.session.machine = run.machine →
      g.session.machine = run.machine → f.session.stage = .ended .terminal →
      g.session.stage = .ended .terminal → f.session.messages.tail = g.session.messages.tail := by
  intro scene
  have hattended : w.Attended run.machine False := by
    refine ⟨hordered, ⟨0, ?_⟩, Or.inl hprovisioning⟩
    intro n active hn hid
    exact Or.inl (.of_mayWrite (hothers active (List.mem_of_getElem? hn) hid))
  -- the same invariant twice: up to the moment at which the run begins, and from there on
  have hstart := (follows run.machine False).play (opening w) ⟨hattended, nofun⟩ hbefore
  have hbegun : Holds _ _ scene := (follows run.machine True).play
    (((opening w).play before).begin run (run.script equipment c))
    ⟨hstart.world.start run (run.running_script equipment c), fun f hf =>
      ⟨(hstart.followers f hf).1, fun hid => ((hstart.followers f hf).2 hid).begin _ _⟩⟩
    fun a ha => Act.Within.imp (fun _ hd => Or.inl hd) (hduring a ha)
  have hcomplete : ∀ f ∈ scene.followers, f.session.machine = run.machine →
      f.session.stage = .ended .terminal → scene.world.IsOver run.machine ∧
        ∃ row status, f.session.Complete scene.world.database row status := by
    intro f hf hid hended
    obtain ⟨hfaithful, hfollows⟩ := hbegun.followers f hf
    exact (hfollows hid).complete hbegun.world.ordered hfaithful.sound hid hended
  refine ⟨?_, ?_⟩
  · intro f hf hid hended
    obtain ⟨hover, hsession⟩ := hcomplete f hf hid hended
    refine ⟨?_, hsession⟩
    intro active hactive hid'
    obtain ⟨n, hn⟩ := List.getElem?_of_mem hactive
    exact (hover n active hn hid').mayWrite_eq
  · intro f hf g hg hidf hidg hendedf hendedg
    obtain ⟨-, row, status, hsession⟩ := hcomplete f hf hidf hendedf
    obtain ⟨-, row', status', hsession'⟩ := hcomplete g hg hidg hendedg
    exact hsession.messages_tail_eq hsession' (hidf.trans hidg.symm)

/-! ## Two sessions of a run that fails -/

/-- One machine, which is being provisioned. -/
def World.withMachine : World :=
  { World.empty with
    database :=
      { Database.empty with
        machines := [NewMachine.row ⟨1, "web", "192.0.2.1", "hetzner", .empty⟩ ⟨0, 0⟩] } }

/-- A prober that gives up at once. -/
def Equipment.impatient : Equipment :=
  ⟨⟨⟨0, 0, 0, 0, sshPort⟩, ⟨0, 0, 0, 0, sshPort⟩⟩, ⟨"ansible-playbook", "site.yml", "key", [], 0⟩⟩

/-- A session begins before the run and has taken its handle and read the status. -/
def Scene.beforeRun : List Act :=
  .join 1 ⟨1, "web", "192.0.2.1", .provisioning, false⟩ 0 :: List.replicate 3 (.step 0 false)

/--
The session reads two lines, the third is lost, the run ends, another session begins and ends, and
the first one goes on.
-/
def Scene.duringRun : List Act :=
  List.replicate 4 (.deed (.run 0 none)) ++ List.replicate 5 (.step 0 false) ++
    .deed (.run 0 (some .noConnection)) :: List.replicate 5 (.deed (.run 0 none)) ++
    .join 1 ⟨1, "web", "192.0.2.1", .failed, false⟩ 0 :: List.replicate 8 (.step 1 false) ++
    .resume 0 .signalled false :: List.replicate 5 (.step 0 false)

/-- The run of the machine, which does not reach it. -/
def Run.ofMachine : Run := ⟨1, "192.0.2.1", .empty, .reprovision⟩

/-- Nobody answers. -/
def Circumstances.silent : Circumstances :=
  ⟨fun _ => .unanswered, ⟨.error "disk full", .error .missing⟩⟩

/-- The scene when both sessions have ended. -/
def Scene.afterRun : Scene :=
  (((opening .withMachine).play beforeRun).begin .ofMachine
    (Run.ofMachine.script .impatient .silent)).play duringRun

theorem Scene.complete_of_terminal_afterRun :
    World.withMachine.database.LogOrdered ∧
    World.withMachine.database.statusOf? Run.ofMachine.machine =
      some MachineStatus.provisioning.word ∧
    (∀ active ∈ World.withMachine.runs, active.run.machine = Run.ofMachine.machine →
      active.script.mayWrite = false) ∧
    (∀ a ∈ beforeRun, a.Within fun d => d.Fits Run.ofMachine.machine False) ∧
    (∀ a ∈ duringRun, a.Within fun d => d.Spares Run.ofMachine.machine) ∧
    afterRun.followers.length = 2 ∧ (afterRun.world.database.entriesOf 1).length = 3 ∧
    ∀ f ∈ afterRun.followers, f.session.stage = .ended .terminal ∧
      ∃ row status, f.session.Complete afterRun.world.database row status := by
  have hordered : World.withMachine.database.LogOrdered := ⟨.nil, nofun, nofun, Int.one_pos⟩
  have hbefore : ∀ a ∈ beforeRun, a.Within fun d => d.Fits Run.ofMachine.machine False := by
    simp [beforeRun, Act.Within]
  have hduring : ∀ a ∈ duringRun, a.Within fun d => d.Spares Run.ofMachine.machine := by
    simp [duringRun, Act.Within, Deed.Spares]
  have hended : ∀ f ∈ afterRun.followers, (f.session.machine = Run.ofMachine.machine ∧
      f.session.stage = .ended .terminal) := by
    decide +kernel
  refine ⟨hordered, rfl, nofun, hbefore, hduring, by decide +kernel, by decide +kernel, ?_⟩
  intro f hf
  refine ⟨(hended f hf).2, ?_⟩
  exact ((complete_of_terminal hordered rfl nofun hbefore hduring).1 f hf (hended f hf).1
    (hended f hf).2).2

end Provisioner
