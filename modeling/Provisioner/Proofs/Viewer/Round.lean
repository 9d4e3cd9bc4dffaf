import Mathlib.Data.List.Induction
import Provisioner.Proofs.Viewer.Cursor

/-!
# Sessions, round by round

Each round of a session begins when it takes a handle. A session tells a status only at the end of a
round in which it read a snapshot with that status, and only if the status is terminal
(`Follower.Remembers`, `Scene.HasRead`).

With what is known of its messages at every moment (`Follower.Orderly`) and of its cursor, this says
what a viewer can rely on whatever else happens (`Scene.cursor_invariant`).
-/

namespace Provisioner

namespace Session

theorem messages_finish (s : Session) (ending : Ending) : (s.finish ending).messages = s.messages :=
  messages_send (s.go (.ended ending)) .close nofun

end Session

namespace Follower

variable {db : Database} {hub hub' : Hub} {f f' : Follower}

/-! ## The order of the messages -/

/-- What was sent is nothing, or the greeting and some entries, or all that and then a status. -/
inductive Orderly (f : Follower) : Prop where
  | silent (hmessages : f.session.messages = []) (hforwarded : f.forwarded = [])
  | greeted (snapshot : Snapshot) (hmessages : f.session.messages = .init snapshot :: f.lines)
  | concluded (snapshot : Snapshot) (status : MachineStatus) (removed : Bool)
      (hmessages : f.session.messages =
        .init snapshot :: f.lines ++ [.status status removed])

theorem Orderly.of_messages (h : f.Orderly) {s : Session}
    (hs : s.messages = f.session.messages) : Orderly { f with session := s } := by
  cases h with
  | silent hmessages hforwarded => exact .silent (hs.trans hmessages) hforwarded
  | greeted snapshot hmessages => exact .greeted snapshot (hs.trans hmessages)
  | concluded snapshot status removed hmessages =>
    exact .concluded snapshot status removed (hs.trans hmessages)

theorem Spoken.orderly (h : f.Spoken)
    (hending : ∀ ending, f.session.stage = .ended ending → ending = .terminal) : f.Orderly := by
  unfold Spoken at h
  cases hstage : f.session.stage with
  | greeting snapshot =>
    rw [hstage] at h
    obtain ⟨hmessages, hforwarded, -⟩ := h
    exact .silent hmessages hforwarded
  | ended ending =>
    obtain rfl := hending ending hstage
    rw [hstage] at h
    obtain ⟨status, removed, ⟨snapshot, hmessages⟩, -⟩ := h
    exact .concluded snapshot status removed hmessages
  | _ =>
    rw [hstage] at h
    obtain ⟨⟨snapshot, hmessages⟩, -⟩ := h
    exact .greeted snapshot hmessages

theorem Orderly.move (h : f.Orderly) (hspoken : f.Spoken) (hmove : Move db hub f f' hub') :
    f'.Orderly := by
  have hspoken' := hspoken.move hmove
  cases hmove with
  | idle => exact h
  | leave _ | quit _ _ _ => exact h.of_messages (Session.messages_finish _ _)
  | answer _ payload => exact h.of_messages (Session.messages_send _ (.pong payload) nofun)
  | tell _ _ =>
    refine hspoken'.orderly ?_
    intro ending hending
    cases hending
    rfl
  | _ => exact hspoken'.orderly nofun

/-! ## What a session has read in its round -/

/-- The snapshot that a session holds, and the one whose status it has told, are among those read. -/
structure Remembers (read : Snapshot → Prop) (f : Follower) : Prop where
  reading : ∀ wake current, f.session.stage = .reading wake current → read current
  forwarding : ∀ wake current left, f.session.stage = .forwarding wake current left → read current
  /-- Once it has told a status it makes no further round. -/
  told : ∀ status removed, .message (.status status removed) ∈ f.session.sent →
    f.session.isOver = true ∧ status.isTerminal = true ∧
      ∃ current, read current ∧ current.status = status ∧ current.credentialRemoved = removed

namespace Remembers

variable {read read' : Snapshot → Prop}

theorem start (read : Snapshot → Prop) (id : MachineId) (snapshot : Snapshot) (now : Nat) :
    Remembers read (.start id snapshot now) where
  reading := nofun
  forwarding := nofun
  told _ _ h := absurd h List.not_mem_nil

/-- A session that has not ended has told no status. -/
theorem not_told (h : f.Remembers read) (hover : f.session.isOver = false) (status : MachineStatus)
    (removed : Bool) : .message (.status status removed) ∉ f.session.sent := by
  intro hmem
  obtain ⟨hover', -⟩ := h.told status removed hmem
  rw [hover] at hover'
  cases hover'

/-- At the beginning of a round nothing has to be remembered. -/
theorem imp (h : f.Remembers read)
    (hread : f.session.stage ≠ .arming → ∀ current, read current → read' current) :
    f.Remembers read' where
  reading wake current hstage :=
    hread (by rw [hstage]; nofun) current (h.reading wake current hstage)
  forwarding wake current left hstage :=
    hread (by rw [hstage]; nofun) current (h.forwarding wake current left hstage)
  told status removed hmem := by
    obtain ⟨hover, hterminal, current, hcurrent, hshown⟩ := h.told status removed hmem
    refine ⟨hover, hterminal, current, hread ?_ current hcurrent, hshown⟩
    intro hstage
    unfold Session.isOver at hover
    rw [hstage] at hover
    cases hover

/-- A session that goes on elsewhere without telling a status, and holds no other snapshot. -/
theorem elsewhere (h : f.Remembers read) (hover : f.session.isOver = false)
    (hsent : f'.session.sent = f.session.sent ∨ ∃ frame, f'.session.sent = frame :: f.session.sent ∧
      ∀ status removed, frame ≠ .message (.status status removed))
    (hreading : ∀ wake current, f'.session.stage = .reading wake current → read' current)
    (hforwarding : ∀ wake current left, f'.session.stage = .forwarding wake current left →
      read' current) : f'.Remembers read' where
  reading := hreading
  forwarding := hforwarding
  told status removed hmem := by
    refine absurd ?_ (h.not_told hover status removed)
    rcases hsent with hsent | ⟨frame, hsent, hframe⟩
    · rwa [hsent] at hmem
    · rw [hsent] at hmem
      exact List.mem_of_ne_of_mem (hframe status removed).symm hmem

/-- **A session comes to remember another snapshot only by reading it.** -/
theorem move (h : f.Remembers read) (hmove : Move db hub f f' hub') :
    f'.Remembers fun current => read current ∨
      ∃ wake, f.session.stage = .looking wake ∧ f'.session.stage = .reading wake current ∧
        db.snapshot f.session.machine = .ok (some current) := by
  cases hmove with
  | idle => exact h.imp fun _ _ => .inl
  | greet hstage | leave hstage | ping hstage _ =>
    exact h.elsewhere (isOver_of_stage hstage nofun) (.inr ⟨_, rfl, nofun⟩) nofun nofun
  | quit _ hover _ => exact h.elsewhere hover (.inr ⟨_, rfl, nofun⟩) nofun nofun
  | arm hstage | miss hstage _ | park hstage _ | wake hstage =>
    exact h.elsewhere (isOver_of_stage hstage nofun) (.inl rfl) nofun nofun
  | @look wake current hstage hread =>
    refine h.elsewhere (isOver_of_stage hstage nofun) (.inl rfl) ?_ nofun
    rintro _ _ hnext
    cases hnext
    exact .inr ⟨wake, hstage, rfl, hread⟩
  | read hstage =>
    refine h.elsewhere (isOver_of_stage hstage nofun) (.inl rfl) nofun ?_
    rintro _ _ _ hnext
    cases hnext
    exact .inl (h.reading _ _ hstage)
  | forward hstage =>
    refine h.elsewhere (isOver_of_stage hstage nofun) (.inr ⟨_, rfl, nofun⟩) nofun ?_
    rintro _ _ _ hnext
    cases hnext
    exact .inl (h.forwarding _ _ _ hstage)
  | @tell wake current hstage hterminal =>
    refine ⟨nofun, nofun, ?_⟩
    intro status removed hmem
    -- the close frame stands before the status that was just told
    rcases List.mem_cons.mp ((List.mem_cons.mp hmem).resolve_left nofun) with hmem | hmem
    · cases hmem
      exact ⟨rfl, hterminal, current, .inl (h.forwarding _ _ _ hstage), rfl, rfl⟩
    · exact absurd hmem (h.not_told (isOver_of_stage hstage nofun) status removed)
  | answer hover payload =>
    exact h.elsewhere hover (.inr ⟨_, rfl, nofun⟩)
      (fun wake current hstage => .inl (h.reading wake current hstage))
      (fun wake current left hstage => .inl (h.forwarding wake current left hstage))

end Remembers

end Follower

namespace Scene

open Follower

/-! ## Rounds -/

/-- The n-th session read a snapshot while some acts were played and has begun no round since. -/
def HasRead (scene : Scene) (acts : List Act) (n : Nat) (current : Snapshot) : Prop :=
  ∃ before after g wake, acts = before ++ .step n false :: after ∧
    (scene.play before).followers[n]? = some g ∧ g.session.stage = .looking wake ∧
    (scene.play before).world.database.snapshot g.session.machine = .ok (some current) ∧
    ∀ middle, middle <+: after → ∀ g',
      (scene.play (before ++ .step n false :: middle)).followers[n]? = some g' →
        g'.session.stage ≠ .arming

variable {scene : Scene} {acts : List Act} {n : Nat} {f f' : Follower} {current : Snapshot}

/-- What a session has read counts until it begins another round. -/
theorem HasRead.concat (h : scene.HasRead acts n current) {a : Act}
    (hf : (scene.play (acts ++ [a])).followers[n]? = some f)
    (hstage : f.session.stage ≠ .arming) : scene.HasRead (acts ++ [a]) n current := by
  obtain ⟨before, after, g, wake, rfl, hg, hlooking, hread, hround⟩ := h
  refine ⟨before, after ++ [a], g, wake, by simp, hg, hlooking, hread, ?_⟩
  intro middle hmiddle g' hg'
  -- only the moment right after `a` is new
  rcases List.prefix_concat_iff.mp hmiddle with rfl | hmiddle
  · rw [← List.cons_append, ← List.append_assoc, hf] at hg'
    cases hg'
    exact hstage
  · exact hround middle hmiddle g' hg'

theorem hasRead_concat_step {wake wake' : Handle}
    (hf : (scene.play acts).followers[n]? = some f) (hlooking : f.session.stage = .looking wake)
    (hread : (scene.play acts).world.database.snapshot f.session.machine = .ok (some current))
    (hf' : (scene.play (acts ++ [.step n false])).followers[n]? = some f')
    (hreading : f'.session.stage = .reading wake' current) :
    scene.HasRead (acts ++ [.step n false]) n current := by
  refine ⟨acts, [], f, wake, rfl, hf, hlooking, hread, ?_⟩
  intro middle hmiddle g hg
  rw [List.prefix_nil.mp hmiddle, hf'] at hg
  cases hg
  rw [hreading]
  nofun

/-! ## One session among the others -/

/-- The n-th session after a turn. -/
theorem getElem?_turn {m : Nat} {move : Follower → Follower × Hub}
    (h : (scene.turn m move).followers[n]? = some f') :
    (m ≠ n ∧ scene.followers[n]? = some f') ∨
      m = n ∧ ∃ f, scene.followers[n]? = some f ∧ f' = (move f).1 := by
  unfold turn at h
  cases hm : scene.followers[m]? with
  | none =>
    simp only [hm] at h
    refine .inl ⟨?_, h⟩
    rintro rfl
    rw [hm] at h
    cases h
  | some f =>
    simp only [hm] at h
    by_cases hmn : m = n
    · subst hmn
      obtain ⟨hlt, -⟩ := List.getElem?_eq_some_iff.mp hm
      rw [List.getElem?_set_self hlt] at h
      cases h
      exact .inr ⟨rfl, f, hm, rfl⟩
    · rw [List.getElem?_set_ne hmn] at h
      exact .inl ⟨hmn, h⟩

/-- A session goes from its handle to the entries. -/
def Looks (f f' : Follower) : Prop :=
  ∃ wake wake' current, f.session.stage = .looking wake ∧ f'.session.stage = .reading wake' current

theorem not_looks_of_stage_eq (h : f'.session.stage = f.session.stage) : ¬Looks f f' := by
  rintro ⟨wake, wake', current, hlooking, hreading⟩
  rw [h, hlooking] at hreading
  cases hreading

theorem not_looks_step (f : Follower) (db : Database) (hub : Hub) :
    ¬Looks f (f.step db hub true).1 := by
  rintro ⟨wake, wake', current, hlooking, hreading⟩
  unfold Follower.step Session.step at hreading
  rw [hlooking] at hreading
  cases hreading

theorem not_looks_resume (f : Follower) (hub : Hub) (cause : Session.Wakeup) (fails : Bool) :
    ¬Looks f (f.resume hub cause fails) := by
  rintro ⟨wake, wake', current, hlooking, hreading⟩
  refine not_looks_of_stage_eq ?_ ⟨wake, wake', current, hlooking, hreading⟩
  unfold Follower.resume Session.resume
  split
  · rfl
  · rw [hlooking]
    exact hlooking

/-- The n-th session after an act has just begun, or has made a move. It looks only in its own step. -/
theorem getElem?_act {a : Act} (h : (scene.act a).followers[n]? = some f') :
    (∃ id snapshot now, f' = .start id snapshot now) ∨
      ∃ f hub, scene.followers[n]? = some f ∧
        Move scene.world.database scene.world.hub f f' hub ∧ (Looks f f' → a = .step n false) := by
  have hidle : scene.followers[n]? = some f' → ∃ f hub, scene.followers[n]? = some f ∧
      Move scene.world.database scene.world.hub f f' hub ∧ (Looks f f' → a = .step n false) :=
    fun hf => ⟨f', _, hf, .idle, fun hlooks => absurd hlooks (not_looks_of_stage_eq rfl)⟩
  cases a with
  | deed d => exact .inr (hidle h)
  | join id snapshot now =>
    replace h : (scene.followers ++ [Follower.start id snapshot now])[n]? = some f' := h
    rw [List.getElem?_append] at h
    split at h
    · exact .inr (hidle h)
    · have hnew := List.mem_of_getElem? h
      exact .inl ⟨id, snapshot, now, List.mem_singleton.mp hnew⟩
  | step m fails =>
    rcases getElem?_turn h with ⟨-, hf⟩ | ⟨rfl, f, hf, rfl⟩
    · exact .inr (hidle hf)
    · refine .inr ⟨f, _, hf, f.move_step _ _ fails, ?_⟩
      cases fails with
      | false => exact fun _ => rfl
      | true => exact fun hlooks => absurd hlooks (not_looks_step f _ _)
  | resume m cause fails =>
    rcases getElem?_turn h with ⟨-, hf⟩ | ⟨rfl, f, hf, rfl⟩
    · exact .inr (hidle hf)
    · exact .inr ⟨f, _, hf, f.move_resume _ _ cause fails,
        fun hlooks => absurd hlooks (not_looks_resume f _ cause fails)⟩
  | answer m payload =>
    rcases getElem?_turn h with ⟨-, hf⟩ | ⟨rfl, f, hf, rfl⟩
    · exact .inr (hidle hf)
    · refine .inr ⟨f, _, hf, f.move_answer _ _ payload, fun hlooks => absurd hlooks ?_⟩
      refine not_looks_of_stage_eq ?_
      unfold Session.answer
      split <;> rfl

/-- **What a session remembers it has read in its round.** -/
theorem remembers_hasRead (scene : Scene) (hscene : scene.followers = []) (acts : List Act)
    (hf : (scene.play acts).followers[n]? = some f) : f.Remembers (scene.HasRead acts n) := by
  -- the last act is taken off, since a round that is under way goes on behind it
  induction acts using List.reverseRecOn generalizing f with
  | nil =>
    rw [play_nil, hscene] at hf
    cases hf
  | append_singleton acts a ih =>
    have hact := hf
    rw [play_append] at hact
    rcases getElem?_act hact with ⟨id, snapshot, now, rfl⟩ | ⟨g, hub, hg, hmove, hlooks⟩
    · exact .start _ id snapshot now
    · refine ((ih hg).move hmove).imp ?_
      rintro hstage current (hread | ⟨wake, hlooking, hreading, hread⟩)
      · exact hread.concat hf hstage
      · obtain rfl := hlooks ⟨wake, wake, current, hlooking, hreading⟩
        exact hasRead_concat_step hg hlooking hread hf hreading

/-- Every session has spoken in order up to any moment. -/
theorem orderly : Invariant (fun _ => True) (fun _ => True)
    (fun _ f => f.Spoken ∧ f.Orderly) where
  deed _ _ := trivial
  hub _ := trivial
  join id snapshot now _ := ⟨spoken_start id snapshot now, .silent rfl rfl⟩
  kept _ _ hf := hf
  beside _ _ hf := hf
  move hmove _ hf := ⟨hf.1.move hmove, hf.2.move hf.1 hmove⟩

/--
**What a session has sent, whatever else happens.** At every moment its messages are a beginning of
a greeting, lines and a status. The entries forwarded are of its machine, with growing ids, and none
that is stored at or below the cursor is missing among them. A status was told only if it is
terminal and was read in the same round.
-/
theorem cursor_invariant {w : World} (hw : w.database.LogOrdered) (acts : List Act)
    (hf : ((opening w).play acts).followers[n]? = some f) :
    f.Orderly ∧
    f.forwarded.Pairwise (·.id < ·.id) ∧
    (∀ e ∈ f.forwarded, e.machine = f.session.machine) ∧
    (∀ e ∈ ((opening w).play acts).world.database.entriesOf f.session.machine,
      e.id ≤ f.session.cursor → e ∈ f.forwarded) ∧
    ∀ status removed, .status status removed ∈ f.session.messages →
      status.isTerminal = true ∧ ∃ current, (opening w).HasRead acts n current ∧
        current.status = status ∧ current.credentialRemoved = removed := by
  have hmem : f ∈ ((opening w).play acts).followers := List.mem_of_getElem? hf
  have horderly := orderly.play (opening w) ⟨trivial, nofun⟩ (within_true acts)
  have hfaithful := faithful.play (opening w) ⟨hw, nofun⟩ (within_true acts)
  have hsound := (hfaithful.followers f hmem).sound
  refine ⟨(horderly.followers f hmem).2, hsound.sorted, hsound.machine, ?_, ?_⟩
  · intro e he hle
    obtain ⟨hstored, hmachine⟩ := Database.mem_entriesOf.mp he
    exact hsound.complete e hstored hmachine hle
  · intro status removed hstatus
    obtain ⟨-, hterminal, hread⟩ := (remembers_hasRead (opening w) rfl acts hf).told status removed
      (Session.mem_messages.mp hstatus)
    exact ⟨hterminal, hread⟩

end Scene

/-! ## A log that is cleared under a session -/

/--
A session has sent a line and waits. The log is cleared, a line is added and the status written; the
session is woken and goes round its loop once more.
-/
def Scene.clearedMeanwhile : List Act :=
  [.deed (.record ⟨1, "web", "192.0.2.1", "hetzner", .empty⟩),
    .deed (.write 1 (.append "Installing")),
    .join 1 ⟨1, "web", "192.0.2.1", .provisioning, false⟩ 0] ++
  List.replicate 6 (.step 0 false) ++
  [.deed (.write 1 .clearLog), .deed (.write 1 (.append "Installing again")),
    .deed (.write 1 (.setStatus .failed)), .deed (.notify 1), .resume 0 .signalled false] ++
  List.replicate 5 (.step 0 false)

theorem Scene.cursor_invariant_clearedMeanwhile :
    World.empty.database.LogOrdered ∧
    ∃ f, ((opening .empty).play clearedMeanwhile).followers[0]? = some f ∧
      f.forwarded.map (·.id) = [1, 2] ∧
      f.session.messages = [.init ⟨1, "web", "192.0.2.1", .provisioning, false⟩,
        .log "Installing", .log "Installing again", .status .failed false] ∧
      f.Orderly ∧
      ∃ current, (opening .empty).HasRead clearedMeanwhile 0 current ∧
        current.status = .failed := by
  have hf : ((opening .empty).play clearedMeanwhile).followers[0]? = some _ := rfl
  obtain ⟨horderly, -, -, -, hstatus⟩ :=
    cursor_invariant Database.logOrdered_empty clearedMeanwhile hf
  obtain ⟨-, current, hread, hfailed, -⟩ := hstatus .failed false (by decide +kernel)
  exact ⟨Database.logOrdered_empty, _, hf, by decide +kernel, by decide +kernel, horderly, current,
    hread, hfailed⟩

end Provisioner
