import Provisioner.Proofs.Api.Deletion
import Provisioner.Proofs.Api.Removal
import Provisioner.Proofs.Viewer.Attribution

/-!
# No generation outlives its machine

A session takes a handle before it knows whether its machine is still there, so it can make a
generation for a machine that was deleted just before. It then reads that there is no row, and
removes what is there.

Once a deletion is completed there is a generation for the machine only as long as some session has
yet to remove it (`Broadcast.Holder`), and none once all sessions of the machine are over
(`Broadcast.no_generation_outlives`). It may be another generation than the session took a handle of,
since the machine's run can still notify (`Broadcast.generation_that_nobody_took`).
-/

namespace Provisioner

open Api Database

namespace Api.Task

/-- The machine whose deletion a request has answered. -/
def deleted? : Task → Option MachineId
  | .answered (.deleted id) => some id
  | _ => none

theorem mem_of_deleted? {tasks : List Task} {id : MachineId} (h : some id ∈ tasks.map deleted?) :
    .answered (.deleted id) ∈ tasks := by
  obtain ⟨t, ht, hid⟩ := List.mem_map.mp h
  unfold deleted? at hid
  split at hid
  · cases hid
    exact ht
  · cases hid

end Api.Task

/-! ## Sessions that are to remove a generation -/

namespace Session

/-- The session is to read the snapshot. -/
def isLooking (s : Session) : Bool :=
  match s.stage with
  | .looking _ => true
  | _ => false

theorem isLooking_of_stage {s : Session} {wake : Handle} (h : s.stage = .looking wake) :
    s.isLooking = true := by
  unfold isLooking
  rw [h]

end Session

namespace Follower

variable {db : Database} {hub hub' : Hub} {f f' : Follower} {id : MachineId} {wake : Handle}

/-- The session took `wake`, is about to miss its machine or has missed it, and is to remove. -/
structure Leaves (f : Follower) (id : MachineId) (wake : Handle) : Prop where
  machine : f.session.machine = id
  stage : f.session.stage = .looking wake ∨ f.session.stage = .leaving

theorem Leaves.isOver_eq (h : f.Leaves id wake) : f.session.isOver = false := by
  rcases h.stage with hstage | hstage
  · exact isOver_of_stage hstage nofun
  · exact isOver_of_stage hstage nofun

/-- **A session whose machine is gone removes the generation, if it can read that it is gone.** -/
theorem Leaves.step (h : f.Leaves id wake) (hub : Hub) (hgone : db.find? id = none) {fails : Bool}
    (hreads : f.session.isLooking = true → fails = false) :
    (f.step db hub fails).1.Leaves id wake ∧ (f.step db hub fails).2 = hub ∨
      (f.step db hub fails).1.session.isOver = true ∧
        (f.step db hub fails).2.generation? id = none := by
  obtain ⟨rfl, hstage⟩ := h
  rcases hstage with hstage | hstage
  · obtain rfl := hreads (Session.isLooking_of_stage hstage)
    have hread : db.snapshot f.session.machine = .ok none := by
      unfold snapshot
      rw [hgone]
    simp only [Follower.step, Session.step, hstage, hread]
    exact Or.inl ⟨⟨rfl, Or.inr rfl⟩, rfl⟩
  · simp only [Follower.step, Session.step, hstage]
    exact Or.inr ⟨rfl, hub.generation?_remove_self _⟩

/-- Nothing else lets such a session go on. -/
theorem Leaves.resume (h : f.Leaves id wake) (hub : Hub) (cause : Session.Wakeup) (fails : Bool) :
    (f.resume hub cause fails).Leaves id wake := by
  have hsame : f.session.resume cause fails = f.session := by
    unfold Session.resume
    rcases h.stage with hstage | hstage <;> rw [hstage]
  unfold Follower.resume
  split
  · exact h
  · rw [hsame]
    exact h

theorem Leaves.answer (h : f.Leaves id wake) (payload : String) :
    Leaves { f with session := f.session.answer payload } id wake := by
  have hsame : f.session.answer payload = f.session.send (.pong payload) := by
    unfold Session.answer
    rw [h.isOver_eq]
    rfl
  rw [hsame]
  exact ⟨h.machine, h.stage⟩

theorem step_of_arming (db : Database) (hub : Hub) (h : f.session.stage = .arming) {fails : Bool} :
    f.step db hub fails =
      (⟨f.session.go (.looking (hub.wait f.session.machine).1), f.forwarded⟩,
        (hub.wait f.session.machine).2) := by
  simp only [step, Session.step, forwardedNext, h]

/-- A session makes a generation only when it takes a handle. -/
theorem Move.signal (h : Move db hub f f' hub') :
    hub.Signal hub' ∨ f.session.stage = .arming ∧ hub' = (hub.wait f.session.machine).2 := by
  cases h with
  | arm hstage => exact Or.inr ⟨hstage, rfl⟩
  | leave => exact Or.inl (.remove _)
  | _ => exact Or.inl .same

end Follower

namespace Scene

variable {n k : Nat} {move : Follower → Follower × Hub} {f : Follower}

theorem turn_of_some (scene : Scene) (h : scene.followers[n]? = some f) :
    scene.turn n move =
      ⟨{ scene.world with hub := (move f).2 }, scene.followers.set n (move f).1⟩ := by
  unfold turn
  rw [h]

theorem turn_of_none (scene : Scene) (h : scene.followers[n]? = none) :
    scene.turn n move = scene := by
  unfold turn
  rw [h]

/-- The turn of one session leaves the others. -/
theorem getElem?_turn_of_ne (scene : Scene) (hne : n ≠ k) :
    (scene.turn n move).followers[k]? = scene.followers[k]? := by
  cases h : scene.followers[n]? with
  | none => rw [scene.turn_of_none h]
  | some f =>
    rw [scene.turn_of_some h]
    exact List.getElem?_set_ne hne

theorem getElem?_turn_self (scene : Scene) (h : scene.followers[n]? = some f) :
    (scene.turn n move).followers[n]? = some (move f).1 := by
  rw [scene.turn_of_some h]
  exact List.getElem?_set_self (List.getElem?_eq_some_iff.mp h).1

end Scene

namespace Broadcast

variable {setup : Setup} {b : Broadcast} {n k : Nat} {f : Follower} {id : MachineId} {wake : Handle}

/-- The hub. -/
abbrev hub (b : Broadcast) : Hub := b.chronicle.service.world.hub

/-- No session fails to read the snapshot. -/
def Reads (b : Broadcast) : Happening → Prop
  | .viewer (.step n true) _ => ∀ f ∈ b.followers[n]?, f.session.isLooking = false
  | _ => True

instance (h : Happening) : Decidable (b.Reads h) :=
  match h with
  | .viewer (.step n true) _ =>
    inferInstanceAs (Decidable (∀ f ∈ b.followers[n]?, f.session.isLooking = false))
  | .viewer (.step _ false) _ | .viewer (.deed _) _ | .viewer (.join _ _ _) _
  | .viewer (.resume _ _ _) _ | .viewer (.answer _ _) _ | .event _ => isTrue trivial

theorem service_event (setup : Setup) (b : Broadcast) (e : Event) :
    (b.next setup (.event e)).chronicle.service = b.chronicle.service.next setup e :=
  Chronicle.service_next setup b.chronicle e

/-- The k-th session takes the handle `wake` of the machine. -/
def Takes (b : Broadcast) (a : Happening) (id : MachineId) (k : Nat) (wake : Handle) : Prop :=
  ∃ fails ha f, a = .viewer (.step k fails) ha ∧ b.followers[k]? = some f ∧
    f.session.machine = id ∧ f.session.stage = .arming ∧ (b.hub.wait id).1 = wake

/-- **All that happens to the hub.** -/
theorem hub_next (setup : Setup) (b : Broadcast) (a : Happening) :
    b.hub.Signal (b.next setup a).hub ∨
      ∃ id k wake, b.Takes a id k wake ∧ (b.next setup a).hub = (b.hub.wait id).2 := by
  have hsame : ∀ n (move : Follower → Follower),
      b.hub.Signal (b.scene.turn n fun f => (move f, b.hub)).world.hub := by
    intro n move
    cases h : b.scene.followers[n]? with
    | none =>
      rw [b.scene.turn_of_none h]
      exact .same
    | some f =>
      rw [b.scene.turn_of_some h]
      exact .same
  cases a with
  | event e =>
    rw [hub, hub, service_event]
    exact Or.inl (b.chronicle.service.signal_next setup e)
  | viewer a ha =>
    cases a with
    | deed d => exact ha.elim
    | join id snapshot now => exact Or.inl .same
    | resume n cause fails => exact Or.inl (hsame n _)
    | answer n payload => exact Or.inl (hsame n _)
    | step n fails =>
      show b.hub.Signal (b.scene.turn n _).world.hub ∨
        ∃ id k wake, _ ∧ (b.scene.turn n _).world.hub = _
      cases h : b.scene.followers[n]? with
      | none =>
        rw [b.scene.turn_of_none h]
        exact Or.inl .same
      | some f =>
        rw [b.scene.turn_of_some h]
        rcases (f.move_step b.chronicle.database b.hub fails).signal with hsignal | ⟨hstage, hwait⟩
        · exact Or.inl hsignal
        · exact Or.inr ⟨f.session.machine, n, _, ⟨fails, ha, f, rfl, h, rfl, hstage, rfl⟩, hwait⟩

theorem hubChange_next (setup : Setup) (b : Broadcast) (a : Happening) :
    b.hub.Change (b.next setup a).hub := by
  rcases b.hub_next setup a with hsignal | ⟨id, k, wake, -, hwait⟩
  · exact hsignal.change
  · rw [hwait]
    exact .wait id

/-- **Only a session that takes a handle makes a generation.** -/
theorem takes_of_arms {a : Happening} (hnone : b.hub.generation? id = none)
    (hsome : (b.next setup a).hub.generation? id ≠ none) : ∃ k wake, b.Takes a id k wake := by
  rcases b.hub_next setup a with hsignal | ⟨other, k, wake, htakes, hwait⟩
  · exact absurd (hsignal.generation?_eq_none hnone) hsome
  · by_cases hid : id = other
    · exact ⟨k, wake, hid ▸ htakes⟩
    · rw [hwait, Hub.generation?_wait_of_ne b.hub hid] at hsome
      exact absurd hnone hsome

/-- A session that takes a handle is to remove what it took, if its machine is gone. -/
theorem Takes.next {a : Happening} (h : b.Takes a id k wake) (setup : Setup) :
    (∃ f, (b.next setup a).followers[k]? = some f ∧ f.Leaves id wake) ∧
      (b.next setup a).hub.Holds id wake := by
  obtain ⟨fails, ha, f, rfl, hf, rfl, hstage, rfl⟩ := h
  have hact : b.scene.act (.step k fails) =
      ⟨{ b.scene.world with hub := (b.hub.wait f.session.machine).2 },
        b.followers.set k
          ⟨f.session.go (.looking (b.hub.wait f.session.machine).1), f.forwarded⟩⟩ := by
    refine (b.scene.turn_of_some hf).trans ?_
    rw [Follower.step_of_arming _ _ hstage]
    rfl
  constructor
  · refine ⟨⟨f.session.go (.looking (b.hub.wait f.session.machine).1), f.forwarded⟩, ?_, rfl,
      Or.inl rfl⟩
    show (b.scene.act (.step k fails)).followers[k]? = _
    rw [hact]
    exact List.getElem?_set_self (List.getElem?_eq_some_iff.mp hf).1
  · show (b.scene.act (.step k fails)).world.hub.Holds _ _
    rw [hact]
    exact Hub.Holds.taken _ _

/-- **A session that is to remove a generation goes on to be until it is removed.** -/
theorem leaves_next (hf : b.followers[k]? = some f) (h : f.Leaves id wake)
    (hgone : b.chronicle.database.find? id = none) {a : Happening} (hreads : b.Reads a)
    (hsome : (b.next setup a).hub.generation? id ≠ none) :
    ∃ f', (b.next setup a).followers[k]? = some f' ∧ f'.Leaves id wake := by
  -- the turn of another session leaves this one, and its own turn keeps it or removes
  have hturn : ∀ n move, (n = k → (move f).1.Leaves id wake ∨ (move f).2.generation? id = none) →
      (b.scene.turn n move).world.hub.generation? id ≠ none →
      ∃ f', (b.scene.turn n move).followers[k]? = some f' ∧ f'.Leaves id wake := by
    intro n move hmove hsome
    by_cases hn : n = k
    · subst hn
      rcases hmove rfl with hleaves | hnone
      · exact ⟨_, b.scene.getElem?_turn_self hf, hleaves⟩
      · rw [b.scene.turn_of_some hf] at hsome
        exact absurd hnone hsome
    · exact ⟨f, (b.scene.getElem?_turn_of_ne hn).trans hf, h⟩
  cases a with
  | event e => exact ⟨f, hf, h⟩
  | viewer a ha =>
    cases a with
    | deed d => exact ha.elim
    | join other snapshot now =>
      refine ⟨f, ?_, h⟩
      show (b.followers ++ _)[k]? = some f
      rw [List.getElem?_append_left (List.getElem?_eq_some_iff.mp hf).1, hf]
    | step n fails =>
      refine hturn n _ ?_ hsome
      rintro rfl
      have hfails : f.session.isLooking = true → fails = false := by
        intro hlooking
        cases fails with
        | false => rfl
        | true =>
          have hnot := hreads f hf
          rw [hlooking] at hnot
          cases hnot
      exact (h.step b.hub hgone hfails).imp And.left And.right
    | resume n cause fails => exact hturn n _ (fun _ => Or.inl (h.resume _ cause fails)) hsome
    | answer n payload => exact hturn n _ (fun _ => Or.inl (h.answer payload)) hsome

/-! ## The service -/

/-- What holds of the service at every moment. -/
structure Serves (b : Broadcast) : Prop where
  exclusive : b.chronicle.service.Exclusive
  removing : b.chronicle.service.Removing

theorem Serves.next (h : b.Serves) {a : Happening} (hfresh : b.Fresh a) :
    (b.next setup a).Serves := by
  cases a with
  | event e =>
    have hexclusive : (b.chronicle.service.next setup e).Exclusive := h.exclusive.next hfresh
    have hremoving : (b.chronicle.service.next setup e).Removing :=
      h.removing.next h.exclusive hfresh
    rw [← service_event] at hexclusive hremoving
    exact ⟨hexclusive, hremoving⟩
  | viewer a ha =>
    exact ⟨⟨⟨h.exclusive.orderly.tasks, h.exclusive.orderly.runs⟩, h.exclusive.sound⟩,
      ⟨h.removing.known, h.removing.gone⟩⟩

/-- A row that is gone never comes back. -/
theorem gone_next (hb : b.Serves) {a : Happening} (hfresh : b.Fresh a)
    (h : (b.chronicle.service.ledger id).Gone) :
    ((b.next setup a).chronicle.service.ledger id).Gone := by
  cases a with
  | event e =>
    rw [service_event]
    exact h.change (Service.change_next hb.exclusive.orderly setup hfresh id)
  | viewer a ha => exact h

theorem find?_of_gone (h : (b.chronicle.service.ledger id).Gone) :
    b.chronicle.database.find? id = none := find?_eq_none_iff.mpr h.status

/-! ## Histories -/

/--
At some moment of a history the k-th session took the handle `wake`, and since then the hub has never
been without a generation for its machine.
-/
def Took (setup : Setup) (b : Broadcast) (history : List Happening) (id : MachineId) (k : Nat)
    (wake : Handle) : Prop :=
  ∃ before a after, history = before ++ a :: after ∧ (b.play setup before).Takes a id k wake ∧
    ∀ seen, seen <+: after → (b.play setup (before ++ a :: seen)).hub.generation? id ≠ none

/--
The k-th session took its handle in the line of generations that the hub still holds for the machine,
and is yet to remove it.
-/
structure Holder (setup : Setup) (b : Broadcast) (history : List Happening) (id : MachineId)
    (k : Nat) (wake : Handle) : Prop where
  took : Took setup b history id k wake
  leaves : ∃ f, (b.play setup history).followers[k]? = some f ∧ f.Leaves id wake
  /-- What the hub holds is what the session took, unless that was signalled since. -/
  holds : (b.play setup history).hub.Holds id wake

section Holder

variable {history : List Happening} {a : Happening}

theorem play_concat (setup : Setup) (b : Broadcast) (history : List Happening) (a : Happening) :
    b.play setup (history ++ [a]) = (b.play setup history).next setup a := play_append ..

theorem Took.concat (h : Took setup b history id k wake)
    (hsome : (b.play setup (history ++ [a])).hub.generation? id ≠ none) :
    Took setup b (history ++ [a]) id k wake := by
  obtain ⟨before, taking, after, rfl, htakes, hsince⟩ := h
  rw [List.append_assoc, List.cons_append] at hsome ⊢
  refine ⟨before, taking, after ++ [a], rfl, htakes, ?_⟩
  intro seen hseen
  rcases List.prefix_concat_iff.mp hseen with rfl | hseen
  · exact hsome
  · exact hsince seen hseen

/-- A holder stays one as long as there is a generation. -/
theorem Holder.concat (h : Holder setup b history id k wake)
    (hgone : (b.play setup history).chronicle.database.find? id = none)
    (hreads : (b.play setup history).Reads a)
    (hsome : (b.play setup (history ++ [a])).hub.generation? id ≠ none) :
    Holder setup b (history ++ [a]) id k wake := by
  obtain ⟨f, hf, hleaves⟩ := h.leaves
  refine ⟨h.took.concat hsome, ?_, ?_⟩
  · rw [play_concat] at hsome ⊢
    exact leaves_next hf hleaves hgone hreads hsome
  · rw [play_concat]
    exact h.holds.change (hubChange_next setup _ a)

/-- A session that makes a generation is a holder. -/
theorem exists_holder_of_arms (hnone : (b.play setup history).hub.generation? id = none)
    (hsome : (b.play setup (history ++ [a])).hub.generation? id ≠ none) :
    ∃ k wake, Holder setup b (history ++ [a]) id k wake := by
  have harms := hsome
  rw [play_concat] at harms
  obtain ⟨k, wake, htakes⟩ := takes_of_arms hnone harms
  obtain ⟨hleaves, hholds⟩ := htakes.next setup
  rw [← play_concat] at hleaves hholds
  refine ⟨k, wake, ⟨history, a, [], rfl, htakes, ?_⟩, hleaves, hholds⟩
  intro seen hseen
  rw [List.prefix_nil.mp hseen]
  exact hsome

/-- At some moment of a history a deletion of the machine was completed. -/
def Completed (setup : Setup) (b : Broadcast) (history : List Happening) (id : MachineId) : Prop :=
  ∃ before, before <+: history ∧
    .answered (.deleted id) ∈ (b.play setup before).chronicle.service.tasks

/-- **Once a deletion is completed every generation has a holder.** -/
theorem holder_of_completed (hb : b.Serves) (hnobody : b.chronicle.service.tasks = [])
    (hfresh : Throughout setup Fresh b history) (hreads : Throughout setup Reads b history)
    (hcompleted : Completed setup b history id) :
    ((b.play setup history).chronicle.service.ledger id).Gone ∧
      ((b.play setup history).hub.generation? id ≠ none →
        ∃ k wake, Holder setup b history id k wake) := by
  -- the last happening is taken off, since what a holder took lies before it or is taken in it
  induction history using List.reverseRecOn with
  | nil =>
    obtain ⟨before, hbefore, hmem⟩ := hcompleted
    rw [List.prefix_nil.mp hbefore] at hmem
    replace hmem : .answered (.deleted id) ∈ b.chronicle.service.tasks := hmem
    rw [hnobody] at hmem
    cases hmem
  | append_singleton history a ih =>
    obtain ⟨hfresh, hfresh', -⟩ := throughout_append.mp hfresh
    obtain ⟨hreads, hreads', -⟩ := throughout_append.mp hreads
    have hserves : (b.play setup history).Serves :=
      hfresh.play (I := Serves) (fun _ _ hfresh h => h.next hfresh) hb
    have hbefore : Completed setup b history id →
        ((b.play setup (history ++ [a])).chronicle.service.ledger id).Gone ∧
          ((b.play setup (history ++ [a])).hub.generation? id ≠ none →
            ∃ k wake, Holder setup b (history ++ [a]) id k wake) := by
      intro hcompleted
      obtain ⟨hgone, hholder⟩ := ih hfresh hreads hcompleted
      refine ⟨by rw [play_concat]; exact gone_next hserves hfresh' hgone, fun hsome => ?_⟩
      by_cases hnone : (b.play setup history).hub.generation? id = none
      · exact exists_holder_of_arms hnone hsome
      · obtain ⟨k, wake, hholder⟩ := hholder hnone
        exact ⟨k, wake, hholder.concat (find?_of_gone hgone) hreads' hsome⟩
    obtain ⟨before, hprefix, hmem⟩ := hcompleted
    rcases List.prefix_concat_iff.mp hprefix with rfl | hprefix
    · rw [play_concat] at hmem
      cases a with
      | viewer a ha => exact hbefore ⟨history, List.prefix_rfl, hmem⟩
      | event e =>
        have hremoving :
            ((b.play setup history).next setup (.event e)).chronicle.service.Removing :=
          (hserves.next hfresh').removing
        rw [service_event] at hmem
        rcases Service.deleted_next hmem with hmem' | hnone
        · exact hbefore ⟨history, List.prefix_rfl, hmem'⟩
        · rw [← service_event] at hmem hnone
          rw [play_concat]
          exact ⟨hremoving.gone _ hmem id rfl, fun hsome => absurd hnone hsome⟩
    · exact hbefore ⟨before, hprefix, hmem⟩

end Holder

/--
**No generation outlives its machine.** The service starts with any tables, the provider never hands
out an id twice, and requests, runs and sessions go on in any order; anything may fail, except that
sessions read their snapshots. Once a deletion of a machine is completed:

* if all sessions of the machine are over the hub holds no generation for it;
* if the hub holds one, some session that took a handle has still to read that there is no row, and
  to remove the generation. The session took its handle of this generation, or notifications have
  replaced the one it took by this, and the hub was never without one in between.
-/
theorem no_generation_outlives {db : Database} {servers issued : List MachineId}
    (hissued : ∀ m ∈ db.machines, m.id ∈ issued) {before after : List Happening}
    (hfresh : Throughout setup Fresh (booted db servers issued) (before ++ after))
    (hreads : Throughout setup Reads (booted db servers issued) (before ++ after))
    (hdeleted : .answered (.deleted id) ∈
      ((booted db servers issued).play setup before).chronicle.service.tasks) :
    let b := (booted db servers issued).play setup (before ++ after)
    ((∀ f ∈ b.followers, f.session.machine = id → f.session.isOver = true) →
        b.hub.generation? id = none) ∧
      ∀ generation, b.hub.generation? id = some generation →
        b.chronicle.database.find? id = none ∧
        ∃ k wake, Took setup (booted db servers issued) (before ++ after) id k wake ∧
          (generation = wake.generation ∨ b.hub.isSignalled wake = true) ∧
          ∃ f, b.followers[k]? = some f ∧ f.Leaves id wake := by
  intro b
  have hserves : (booted db servers issued).Serves :=
    ⟨Service.exclusive_booted hissued servers, Service.removing_booted db servers issued⟩
  obtain ⟨hgone, hholder⟩ := holder_of_completed hserves rfl hfresh hreads
    ⟨before, List.prefix_append _ _, hdeleted⟩
  refine ⟨fun hover => ?_, fun generation hgeneration => ⟨find?_of_gone hgone, ?_⟩⟩
  · by_contra hsome
    obtain ⟨k, wake, hholder⟩ := hholder hsome
    obtain ⟨f, hf, hleaves⟩ := hholder.leaves
    have hended := hover f (List.mem_of_getElem? hf) hleaves.machine
    rw [hleaves.isOver_eq] at hended
    cases hended
  · have hsome : b.hub.generation? id ≠ none := by
      rw [hgeneration]
      nofun
    obtain ⟨k, wake, hholder⟩ := hholder hsome
    refine ⟨k, wake, hholder.took, ?_, hholder.leaves⟩
    rcases hholder.holds with hsignalled | hholds
    · exact Or.inr hsignalled
    · exact Or.inl (Option.some.inj (hgeneration.symm.trans hholds))

/-! ## A session that comes late -/

/-- A deletion of the machine 1 is asked for, and the n-th request carries it out. -/
def deletionAsked (n : Nat) : List Happening :=
  .event (.request Deletion.deletionRequest "") ::
    List.replicate 4 (.event (.step n Service.calmOutside))

/-- The machine 1 is deleted before its session takes a handle and its run notifies of a line. -/
def deletedMeanwhile : List Happening :=
  joined :: watchOn 1 ++ reprovisioned 0 ++ runOn 0 1 ++ deletionAsked 1

/-- The session takes a handle, and the run notifies. -/
def notifiedThen : List Happening := watchOn 1 ++ runOn 0 1

theorem no_generation_outlives_deletedMeanwhile :
    (∀ m ∈ Service.interruptedTables.withoutInterrupted.machines, m.id ∈ [(1 : MachineId)]) ∧
    Throughout Service.plainSetup Fresh failedBefore
      (deletedMeanwhile ++ (notifiedThen ++ watchOn 2)) ∧
    Throughout Service.plainSetup Reads failedBefore
      (deletedMeanwhile ++ (notifiedThen ++ watchOn 2)) ∧
    .answered (.deleted 1) ∈
      (failedBefore.play Service.plainSetup deletedMeanwhile).chronicle.service.tasks ∧
    (let b := failedBefore.play Service.plainSetup (deletedMeanwhile ++ notifiedThen)
    ∃ k wake, Took Service.plainSetup failedBefore (deletedMeanwhile ++ notifiedThen) 1 k wake ∧
      (wake.generation = 1 ∨ b.hub.isSignalled wake = true) ∧
      ∃ f, b.followers[k]? = some f ∧ f.Leaves 1 wake) ∧
    (failedBefore.play Service.plainSetup
      (deletedMeanwhile ++ (notifiedThen ++ watchOn 2))).hub.generation? 1 = none := by
  have hissued : ∀ m ∈ Service.interruptedTables.withoutInterrupted.machines,
      m.id ∈ [(1 : MachineId)] := by
    decide +kernel
  have hfresh : Throughout Service.plainSetup Fresh failedBefore
      (deletedMeanwhile ++ (notifiedThen ++ watchOn 2)) := by
    decide +kernel
  have hreads : Throughout Service.plainSetup Reads failedBefore
      (deletedMeanwhile ++ (notifiedThen ++ watchOn 2)) := by
    decide +kernel
  have hdeleted : .answered (.deleted 1) ∈
      (failedBefore.play Service.plainSetup deletedMeanwhile).chronicle.service.tasks :=
    Task.mem_of_deleted? (by decide +kernel)
  refine ⟨hissued, hfresh, hreads, hdeleted, ?_, ?_⟩
  · have hgeneration : (failedBefore.play Service.plainSetup
        (deletedMeanwhile ++ notifiedThen)).hub.generation? 1 = some 1 := by
      decide +kernel
    rw [← List.append_assoc] at hfresh hreads
    obtain ⟨-, k, wake, htook, hwake, hleaves⟩ :=
      (no_generation_outlives hissued (throughout_append.mp hfresh).1 (throughout_append.mp hreads).1
        hdeleted).2 1 hgeneration
    exact ⟨k, wake, htook, hwake.imp_left Eq.symm, hleaves⟩
  · refine (no_generation_outlives hissued hfresh hreads hdeleted).1 ?_
    decide +kernel

/--
A generation that is held after a deletion need not be one that a session took a handle of: the run
has notified since.
-/
theorem generation_that_nobody_took :
    .answered (.deleted 1) ∈
      (failedBefore.play Service.plainSetup deletedMeanwhile).chronicle.service.tasks ∧
    Throughout Service.plainSetup Fresh failedBefore (deletedMeanwhile ++ notifiedThen) ∧
    Throughout Service.plainSetup Reads failedBefore (deletedMeanwhile ++ notifiedThen) ∧
    (failedBefore.play Service.plainSetup
      (deletedMeanwhile ++ notifiedThen)).hub.generation? 1 = some 1 ∧
    ∀ before a after k wake, deletedMeanwhile ++ notifiedThen = before ++ a :: after →
      (failedBefore.play Service.plainSetup before).Takes a 1 k wake → wake.generation ≠ 1 := by
  have hnever : ∀ n < (deletedMeanwhile ++ notifiedThen).length,
      ∀ f ∈ (failedBefore.play Service.plainSetup
        ((deletedMeanwhile ++ notifiedThen).take n)).followers,
      f.session.stage = .arming →
      ((failedBefore.play Service.plainSetup
        ((deletedMeanwhile ++ notifiedThen).take n)).hub.wait 1).1.generation ≠ 1 := by
    decide +kernel
  refine ⟨Task.mem_of_deleted? (by decide +kernel), by decide +kernel, by decide +kernel,
    by decide +kernel, ?_⟩
  · rintro before a after k _ hhistory ⟨fails, ha, f, -, hf, -, hstage, rfl⟩
    have hbefore : (deletedMeanwhile ++ notifiedThen).take before.length = before := by
      rw [hhistory, List.take_left']
      rfl
    have hlength : before.length < (deletedMeanwhile ++ notifiedThen).length := by
      rw [hhistory, List.length_append, List.length_cons]
      omega
    have hgeneration := hnever before.length hlength
    rw [hbefore] at hgeneration
    exact hgeneration f (List.mem_of_getElem? hf) hstage

end Broadcast

end Provisioner
