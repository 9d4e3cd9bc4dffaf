import Provisioner.Proofs.Api.Course
import Provisioner.Proofs.Api.Exclusion
import Provisioner.Proofs.Cloud.Reply

/-!
# When a deletion can be completed

A request to delete a machine first has the provider delete it, then deletes its row and its log. A
machine that the provider does not have it cannot delete, so a deletion that has come to its middle
is not completed by asking again: the provider fails, and the caller is told. It comes there if the
row cannot be deleted, and also if the provider has deleted the machine but its answer was lost. For
what is left behind, a request that is dropped while it waits for the provider is one of these: its
answer is lost, and then it is dropped.

`Deletion.Turn` is all that a step of such a request does, and `Deletion.Outcome` what comes of one
request that is carried out by itself. Requests that meet in any order are covered by
`Deletion.completed_or_refused`, and `Deletion.completed_iff_answered` says which replies of the
provider let one of them through.
-/

namespace Provisioner

namespace Database

/-- What is deleted with a machine is gone. -/
theorem entriesOf_erase_self (db : Database) (id : MachineId) :
    (db.erase id).2.entriesOf id = [] := by
  refine List.filter_eq_nil_iff.mpr fun e he hid => ?_
  have hne := (List.mem_filter.mp he).2
  rw [beq_iff_eq.mp hid] at hne
  simp at hne

theorem erase_erase (db : Database) (id : MachineId) :
    ((db.erase id).2.erase id).2 = (db.erase id).2 := by
  simp [erase]

end Database

namespace Api

open Database

/-! ## What comes of asking the provider -/

namespace Deletion

/-- What comes of it, by the replies; with `unseen` the machine is deleted whatever is replied. -/
def ofReport (report : Hetzner.Report Unit) (unseen : Bool) : Deletion := ⟨report.result, unseen⟩

/-- The provider has the machine, and the request to delete it succeeds. -/
def Granted (deletion : Deletion) (id : MachineId) (w : World) : Prop :=
  id ∈ w.servers ∧ deletion.result = .ok ()

/-- The world without what the provider has deleted. -/
def left (deletion : Deletion) (id : MachineId) (w : World) : World :=
  { w with servers := if deletion.takesEffect then w.servers.filter (· ≠ id) else w.servers }

/-- The world once the provider has deleted a machine. -/
def dismissed (w : World) (id : MachineId) : World :=
  { w with servers := w.servers.filter (· ≠ id) }

theorem left_of_ok {deletion : Deletion} {id : MachineId} {w : World}
    (h : deletion.result = .ok ()) : deletion.left id w = dismissed w id := by
  have heffect : deletion.takesEffect = true := by
    rw [takesEffect, h]
    rfl
  rw [left, if_pos heffect, dismissed]

/-- A machine that the provider does not have is not there afterwards either. -/
theorem not_mem_left {deletion : Deletion} {id : MachineId} {w : World} (h : id ∉ w.servers) :
    id ∉ (deletion.left id w).servers := by
  unfold left
  split
  · exact fun hid => h (List.mem_filter.mp hid).1
  · exact h

end Deletion

/-! ## The steps of a deletion -/

namespace Task

theorem dismiss_of_granted {w : World} {id : MachineId} {deletion : Deletion}
    (h : deletion.Granted id w) : dismiss w id deletion = (.ok (), Deletion.dismissed w id) := by
  rw [← Deletion.left_of_ok h.2, dismiss, if_pos (List.contains_iff_mem.mpr h.1), h.2]
  rfl

/-- Otherwise the request fails, but the machine may be gone. -/
theorem dismiss_of_not_granted {w : World} {id : MachineId} {deletion : Deletion}
    (h : ¬deletion.Granted id w) :
    ∃ failure, dismiss w id deletion = (.error failure, deletion.left id w) ∧
      (id ∈ w.servers → deletion.result = .error failure) := by
  cases hresult : deletion.result with
  | error failure =>
    refine ⟨failure, ?_, fun _ => rfl⟩
    rw [dismiss, hresult]
    simp [Deletion.left, Except.bind]
  | ok _ =>
    have hserver : id ∉ w.servers := fun hserver => h ⟨hserver, hresult⟩
    refine ⟨.refused 404 "", ?_, fun hserver' => absurd hserver' hserver⟩
    rw [dismiss, if_neg (mt List.contains_iff_mem.mp hserver), hresult]
    rfl

section Steps

variable {setup : Setup} {o : Outside} {w : World} {id : MachineId} {failure : DatabaseFailure}

theorem step_finding_of_fault (h : o.fault = some failure) :
    (finding id).step setup o w = (fail (.database failure), w) := by
  simp only [step, statement, h]

theorem step_finding_of_none (h : o.fault = none) (hrow : w.database.find? id = none) :
    (finding id).step setup o w = (fail (noMachine id), w) := by
  simp only [step, statement, withMachine, h, hrow]

theorem step_finding_of_some {m : Machine} (h : o.fault = none)
    (hrow : w.database.find? id = some m) :
    (finding id).step setup o w = (.dismissing id, w) := by
  simp only [step, statement, withMachine, h, hrow]

theorem step_dismissing_of_granted (h : o.deletion.Granted id w) :
    (dismissing id).step setup o w = (.erasing id, Deletion.dismissed w id) := by
  simp only [step, dismiss_of_granted h]

theorem step_dismissing_of_not_granted (setup : Setup) (h : ¬o.deletion.Granted id w) :
    ∃ failure, (id ∈ w.servers → o.deletion.result = .error failure) ∧
      (dismissing id).step setup o w = (fail (.provider failure), o.deletion.left id w) := by
  obtain ⟨failure, hasked, hfailure⟩ := dismiss_of_not_granted h
  exact ⟨failure, hfailure, by simp only [step, hasked]⟩

theorem step_erasing_of_fault (h : o.fault = some failure) :
    (erasing id).step setup o w = (fail (.database failure), w) := by
  simp only [step, statement, h]

theorem step_erasing_of_none (h : o.fault = none) :
    (erasing id).step setup o w =
      (.forgetting id, { w with database := (w.database.erase id).2 }) := by
  simp only [step, statement, h]

end Steps

end Task

/-- The machine that a request is to delete. -/
def Start.deleted? : Start → Option MachineId
  | .task (.finding id) => some id
  | _ => none

theorem Start.eq_of_deleted? {start : Start} {id : MachineId} (h : start.deleted? = some id) :
    start = .task (.finding id) := by
  unfold deleted? at h
  split at h
  · rw [Option.some.inj h]
  · cases h

/-- A request to delete a machine arrives, goes on or is dropped. -/
def Event.Deletes (id : MachineId) : Event → Prop
  | .request r name => (Start.ofRequest r name).deleted? = some id
  | .step _ _ | .drop _ => True
  | .run _ _ => False

instance (id : MachineId) : (e : Event) → Decidable (e.Deletes id)
  | .request r name => inferInstanceAs (Decidable ((Start.ofRequest r name).deleted? = some id))
  | .step _ _ | .drop _ => isTrue trivial
  | .run _ _ => isFalse not_false

namespace Deletion

/-- A deletion of a machine, carried out to its answer with nothing between its steps. -/
def carryOut (setup : Setup) (outside : Nat → Outside) (id : MachineId) (w : World) :
    Task × World :=
  (Task.finding id).after setup outside w 4

/-- The world once a machine is deleted with its row, its log and its generation at the hub. -/
def removed (w : World) (id : MachineId) : World :=
  { dismissed w id with database := (w.database.erase id).2, hub := w.hub.remove id }

/-- What comes of a deletion, by what fails in it. -/
inductive Outcome (outside : Nat → Outside) (id : MachineId) (w : World) : Task × World → Prop where
  | unread (failure : DatabaseFailure) (hfault : (outside 0).fault = some failure) :
      Outcome outside id w (.fail (.database failure), w)
  | missing (hrow : w.database.find? id = none) : Outcome outside id w (.fail (Task.noMachine id), w)
  | refused (failure : ProviderFailure) (hrow : w.database.find? id ≠ none)
      (hrefused : ¬(outside 1).deletion.Granted id w)
      (hfailure : id ∈ w.servers → (outside 1).deletion.result = .error failure) :
      Outcome outside id w (.fail (.provider failure), (outside 1).deletion.left id w)
  | halfway (failure : DatabaseFailure) (hgranted : (outside 1).deletion.Granted id w)
      (hfault : (outside 2).fault = some failure) :
      Outcome outside id w (.fail (.database failure), dismissed w id)
  | completed (hrow : w.database.find? id ≠ none) (hgranted : (outside 1).deletion.Granted id w) :
      Outcome outside id w (.answered (.deleted id), removed w id)

variable {setup : Setup} {outside : Nat → Outside} {id : MachineId} {w : World}

/-- **What comes of a deletion.** -/
theorem outcome (setup : Setup) (outside : Nat → Outside) (id : MachineId) (w : World) :
    Outcome outside id w (carryOut setup outside id w) := by
  unfold carryOut
  have hstart : (Task.finding id).after setup outside w 0 = (.finding id, w) := rfl
  have hfirst := Task.after_succ hstart
  cases hfault : (outside 0).fault with
  | some failure =>
    rw [Task.step_finding_of_fault hfault] at hfirst
    rw [Task.after_of_answered hfirst 3]
    exact .unread failure hfault
  | none =>
    cases hrow : w.database.find? id with
    | none =>
      rw [Task.step_finding_of_none hfault hrow] at hfirst
      rw [Task.after_of_answered hfirst 3]
      exact .missing hrow
    | some m =>
      have hstored : w.database.find? id ≠ none := by
        rw [hrow]
        exact nofun
      rw [Task.step_finding_of_some hfault hrow] at hfirst
      have hsecond := Task.after_succ hfirst
      by_cases hgranted : (outside 1).deletion.Granted id w
      · rw [Task.step_dismissing_of_granted hgranted] at hsecond
        have hthird := Task.after_succ hsecond
        cases herase : (outside 2).fault with
        | some failure =>
          rw [Task.step_erasing_of_fault herase] at hthird
          rw [Task.after_of_answered hthird 1]
          exact .halfway failure hgranted herase
        | none =>
          rw [Task.step_erasing_of_none herase] at hthird
          rw [Task.after_succ hthird]
          exact .completed hstored hgranted
      · obtain ⟨failure, hfailure, hstep⟩ := Task.step_dismissing_of_not_granted setup hgranted
        rw [hstep] at hsecond
        rw [Task.after_of_answered hsecond 2]
        exact .refused failure hstored hgranted hfailure

/-- What comes of a deletion in which the database does not fail. -/
inductive Verdict (deletion : Deletion) (id : MachineId) (w : World) : Task × World → Prop where
  | missing (hrow : w.database.find? id = none) : Verdict deletion id w (.fail (Task.noMachine id), w)
  | refused (failure : ProviderFailure) (hrow : w.database.find? id ≠ none)
      (hrefused : ¬deletion.Granted id w)
      (hfailure : id ∈ w.servers → deletion.result = .error failure) :
      Verdict deletion id w (.fail (.provider failure), deletion.left id w)
  | completed (hrow : w.database.find? id ≠ none) (hgranted : deletion.Granted id w) :
      Verdict deletion id w (.answered (.deleted id), removed w id)

theorem verdict (hcalm : ∀ n, (outside n).fault = none) :
    Verdict (outside 1).deletion id w (carryOut setup outside id w) := by
  have hnofault : ∀ n failure, (outside n).fault ≠ some failure := by
    intro n failure hfault
    rw [hcalm n] at hfault
    cases hfault
  have houtcome := outcome setup outside id w
  generalize carryOut setup outside id w = r at houtcome ⊢
  cases houtcome with
  | unread failure hfault => exact absurd hfault (hnofault 0 failure)
  | missing hrow => exact .missing hrow
  | refused failure hrow hrefused hfailure => exact .refused failure hrow hrefused hfailure
  | halfway failure _ hfault => exact absurd hfault (hnofault 2 failure)
  | completed hrow hgranted => exact .completed hrow hgranted

/-! ## Any number of deletions -/

/-- The stages of a request to delete a machine. -/
inductive Stage (id : MachineId) : Task → Prop where
  | finding : Stage id (.finding id)
  | dismissing : Stage id (.dismissing id)
  | erasing : Stage id (.erasing id)
  | forgetting : Stage id (.forgetting id)
  | deleted : Stage id (.answered (.deleted id))
  | failed (failure : Failure) : Stage id (.answered (.failed failure))

/-- All that a step of such a request does. -/
inductive Turn (id : MachineId) (w : World) : Task → Task × World → Prop where
  | found : Turn id w (.finding id) (.dismissing id, w)
  | dismissed (hserver : id ∈ w.servers) :
      Turn id w (.dismissing id) (.erasing id, dismissed w id)
  /-- The request to the provider fails, and may have been carried out. -/
  | refused (deletion : Deletion) (failure : Failure) :
      Turn id w (.dismissing id) (.answered (.failed failure), deletion.left id w)
  | erased : Turn id w (.erasing id) (.forgetting id, { w with database := (w.database.erase id).2 })
  | forgotten : Turn id w (.forgetting id)
      (.answered (.deleted id), { w with hub := w.hub.remove id })
  | failed {t : Task} (failure : Failure) : Turn id w t (.answered (.failed failure), w)
  | rested : Turn id w (.answered (.deleted id)) (.answered (.deleted id), w)

theorem turn_step {t : Task} (h : Stage id t) (setup : Setup) (o : Outside) (w : World) :
    Turn id w t (t.step setup o w) := by
  cases h with
  | finding =>
    cases hfault : o.fault with
    | some failure =>
      rw [Task.step_finding_of_fault hfault]
      exact .failed _
    | none =>
      cases hrow : w.database.find? id with
      | none =>
        rw [Task.step_finding_of_none hfault hrow]
        exact .failed _
      | some m =>
        rw [Task.step_finding_of_some hfault hrow]
        exact .found
  | dismissing =>
    by_cases hgranted : o.deletion.Granted id w
    · rw [Task.step_dismissing_of_granted hgranted]
      exact .dismissed hgranted.1
    · obtain ⟨failure, -, hstep⟩ := Task.step_dismissing_of_not_granted setup hgranted
      rw [hstep]
      exact .refused _ _
  | erasing =>
    cases hfault : o.fault with
    | some failure =>
      rw [Task.step_erasing_of_fault hfault]
      exact .failed _
    | none =>
      rw [Task.step_erasing_of_none hfault]
      exact .erased
  | forgetting => exact .forgotten
  | deleted => exact .rested
  | failed failure => exact .failed failure

theorem Turn.stage {t t' : Task} {w' : World} (h : Turn id w t (t', w')) : Stage id t' := by
  cases h with
  | found => exact .dismissing
  | dismissed => exact .erasing
  | erased => exact .forgetting
  | forgotten | rested => exact .deleted
  | refused _ failure | failed failure => exact .failed failure

/-- All that an event does while machines are only deleted. -/
inductive Moves (id : MachineId) (s s' : Service) : Prop where
  | waits (hworld : s'.world = s.world) (htasks : ∀ t ∈ s'.tasks, t ∈ s.tasks ∨ t = .finding id)
  | turns {t t' : Task} {w' : World} (ht : t ∈ s.tasks) (hturn : Turn id s.world t (t', w'))
      (hworld : s'.world = w') (htasks : ∀ t ∈ s'.tasks, t ∈ s.tasks ∨ t = t')

theorem moves_next {s : Service} (hs : ∀ t ∈ s.tasks, Stage id t) (setup : Setup) {e : Event}
    (he : e.Deletes id) : Moves id s (s.next setup e) := by
  cases e with
  | request r name =>
    simp only [Service.next, Start.eq_of_deleted? he]
    exact .waits rfl fun t ht => by simpa using ht
  | step n o =>
    simp only [Service.next]
    cases hn : s.tasks[n]? with
    | none => exact .waits rfl fun t ht => Or.inl ht
    | some t =>
      have ht := List.mem_of_getElem? hn
      exact .turns ht (turn_step (hs t ht) setup o s.world) rfl fun t ht =>
        List.mem_or_eq_of_mem_set ht
  | drop n => exact .waits rfl fun t ht => Or.inl (List.mem_of_mem_eraseIdx ht)
  | run n fault => exact he.elim

/-- What holds while a machine is only deleted: its row and its log go together, and only once. -/
structure Kept (id : MachineId) (db : Database) (s : Service) : Prop where
  stages : ∀ t ∈ s.tasks, Stage id t
  database : s.world.database = db ∨ s.world.database = (db.erase id).2
  gone : ∀ t ∈ s.tasks, t = .forgetting id ∨ t = .answered (.deleted id) →
    s.world.database.find? id = none

theorem Kept.next {db : Database} {s : Service} (h : Kept id db s) (setup : Setup) {e : Event}
    (he : e.Deletes id) : Kept id db (s.next setup e) := by
  have hmoves := moves_next h.stages setup he
  generalize s.next setup e = s' at hmoves ⊢
  cases hmoves with
  | waits hworld htasks =>
    refine ⟨fun t ht => ?_, by rw [hworld]; exact h.database, fun t ht hdone => ?_⟩
    · rcases htasks t ht with ht | rfl
      · exact h.stages t ht
      · exact .finding
    · rw [hworld]
      rcases htasks t ht with ht | rfl
      · exact h.gone t ht hdone
      · rcases hdone with hdone | hdone <;> cases hdone
  | @turns t t' w' ht hturn hworld htasks =>
    have hstages : ∀ t ∈ s'.tasks, Stage id t := by
      intro t ht
      rcases htasks t ht with ht | rfl
      · exact h.stages t ht
      · exact hturn.stage
    have hold : ∀ t ∈ s.tasks, t = .forgetting id ∨ t = .answered (.deleted id) →
        w'.database.find? id = none := by
      intro t ht hdone
      have hgone := h.gone t ht hdone
      cases hturn with
      | erased => exact find?_erase_self s.world.database id
      | found | dismissed | refused | forgotten | failed | rested => exact hgone
    refine ⟨hstages, ?_, ?_⟩
    · rw [hworld]
      cases hturn with
      | erased =>
        refine Or.inr ?_
        rcases h.database with hdb | hdb
        · show (s.world.database.erase id).2 = _
          rw [hdb]
        · show (s.world.database.erase id).2 = _
          rw [hdb, erase_erase]
      | found | dismissed | refused | forgotten | failed | rested => exact h.database
    · rw [hworld]
      intro u hu hdone
      rcases htasks u hu with hu | rfl
      · exact hold u hu hdone
      · cases hturn with
        | erased => exact find?_erase_self s.world.database id
        | forgotten => exact h.gone _ ht (Or.inl rfl)
        | rested => exact h.gone _ ht (Or.inr rfl)
        | found | dismissed | refused | failed => rcases hdone with hdone | hdone <;> cases hdone

theorem Kept.play {db : Database} {s : Service} (h : Kept id db s) (setup : Setup)
    {events : List Event} (hevents : ∀ e ∈ events, e.Deletes id) :
    Kept id db (s.play setup events) :=
  List.foldlRecOn events (Service.next setup) h fun _ h e he => h.next setup (hevents e he)

/-- The provider no longer has the machine, and no request is about to delete its row. -/
structure Stuck (id : MachineId) (db : Database) (s : Service) : Prop where
  database : s.world.database = db
  server : id ∉ s.world.servers
  tasks : ∀ t ∈ s.tasks, t = .finding id ∨ t = .dismissing id ∨
    ∃ failure, t = .answered (.failed failure)

theorem Stuck.next {db : Database} {s : Service} (h : Stuck id db s) (setup : Setup) {e : Event}
    (he : e.Deletes id) : Stuck id db (s.next setup e) := by
  have hstages : ∀ t ∈ s.tasks, Stage id t := by
    intro t ht
    rcases h.tasks t ht with rfl | rfl | ⟨failure, rfl⟩
    · exact .finding
    · exact .dismissing
    · exact .failed failure
  have hmoves := moves_next hstages setup he
  generalize s.next setup e = s' at hmoves ⊢
  cases hmoves with
  | waits hworld htasks =>
    refine ⟨by rw [hworld, h.database], by rw [hworld]; exact h.server, ?_⟩
    intro t ht
    rcases htasks t ht with ht | rfl
    · exact h.tasks t ht
    · exact Or.inl rfl
  | @turns t t' w' ht hturn hworld htasks =>
    have hrest : w'.database = s.world.database ∧ id ∉ w'.servers ∧
        (t' = .dismissing id ∨ ∃ failure, t' = .answered (.failed failure)) := by
      have htask := h.tasks t ht
      cases hturn with
      | found => exact ⟨rfl, h.server, Or.inl rfl⟩
      | dismissed hserver => exact absurd hserver h.server
      | refused deletion failure => exact ⟨rfl, not_mem_left h.server, Or.inr ⟨failure, rfl⟩⟩
      | failed failure => exact ⟨rfl, h.server, Or.inr ⟨failure, rfl⟩⟩
      | erased | forgotten | rested => rcases htask with htask | htask | ⟨_, htask⟩ <;> cases htask
    obtain ⟨hdatabase, hserver, ht'⟩ := hrest
    refine ⟨by rw [hworld, hdatabase, h.database], by rw [hworld]; exact hserver, ?_⟩
    intro u hu
    rcases htasks u hu with hu | rfl
    · exact h.tasks u hu
    · exact Or.inr ht'

theorem Stuck.play {db : Database} {s : Service} (h : Stuck id db s) (setup : Setup)
    {events : List Event} (hevents : ∀ e ∈ events, e.Deletes id) :
    Stuck id db (s.play setup events) :=
  List.foldlRecOn events (Service.next setup) h fun _ h e he => h.next setup (hevents e he)

/-- While the row is stored, only a request that is about to delete it can still complete. -/
theorem Kept.stuck {db : Database} {s : Service} (h : Kept id db s)
    (hdatabase : s.world.database = db) (hrow : s.world.database.find? id ≠ none)
    (hserver : id ∉ s.world.servers) (herasing : .erasing id ∉ s.tasks) : Stuck id db s := by
  refine ⟨hdatabase, hserver, fun t ht => ?_⟩
  cases h.stages t ht with
  | finding => exact Or.inl rfl
  | dismissing => exact Or.inr (Or.inl rfl)
  | erasing => exact absurd ht herasing
  | forgetting => exact absurd (h.gone _ ht (Or.inl rfl)) hrow
  | deleted => exact absurd (h.gone _ ht (Or.inr rfl)) hrow
  | failed failure => exact Or.inr (Or.inr ⟨failure, rfl⟩)

theorem Stuck.not_deleted {db : Database} {s : Service} (h : Stuck id db s) :
    .answered (.deleted id) ∉ s.tasks := by
  intro hdone
  rcases h.tasks _ hdone with hdone | hdone | ⟨_, hdone⟩ <;> cases hdone

/--
**A deletion is completed as long as the provider is asked with success.** Any number of requests to
delete a stored machine went on in any order, whatever failed in them. Then its row and its log are
both as before, or both deleted. If they are deleted, a further request is told that there is no
such machine. If not, a further request in which the database does not fail deletes them and is
answered by 200, provided that the provider has the machine and the request to it succeeds;
otherwise it is told of the provider's failure and leaves row and log alone, though the provider may
have deleted the machine. So once the provider no longer has the machine and no request is about to
delete the row, no request ever completes the deletion.
-/
theorem completed_or_refused (setup : Setup) {w : World} {id : MachineId}
    (issued : List MachineId) {events : List Event} (outside : Nat → Outside)
    (hstored : w.database.find? id ≠ none) (hevents : ∀ e ∈ events, e.Deletes id)
    (hcalm : ∀ n, (outside n).fault = none) :
    let s := (Service.mk w [] issued).play setup events
    let r := carryOut setup outside id s.world
    (s.world.database = (w.database.erase id).2 ∧ r = (.fail (Task.noMachine id), s.world)) ∨
    (s.world.database = w.database ∧
      (((outside 1).deletion.Granted id s.world ∧
          r = (.answered (.deleted id), removed s.world id) ∧
          (Response.ofAnswer (.deleted id)).status = 200 ∧
          r.2.database.find? id = none ∧ r.2.database.entriesOf id = []) ∨
        (¬(outside 1).deletion.Granted id s.world ∧
          ∃ failure, (id ∈ s.world.servers → (outside 1).deletion.result = .error failure) ∧
            r = (.fail (.provider failure), (outside 1).deletion.left id s.world) ∧
            r.2.database = w.database)) ∧
      (id ∉ s.world.servers → .erasing id ∉ s.tasks → ∀ later, (∀ e ∈ later, e.Deletes id) →
        (s.play setup later).world.database = w.database ∧
        .answered (.deleted id) ∉ (s.play setup later).tasks)) := by
  intro s r
  have hkept : Kept id w.database s := by
    have hstart : Kept id w.database ⟨w, [], issued⟩ :=
      ⟨fun _ ht => absurd ht List.not_mem_nil, Or.inl rfl, fun _ ht => absurd ht List.not_mem_nil⟩
    exact hstart.play setup hevents
  have hkeeps : s.world.database.find? id ≠ none → s.world.database = w.database := by
    intro hrow
    refine hkept.database.resolve_right fun herased => hrow ?_
    rw [herased, find?_erase_self]
  have hforever : s.world.database.find? id ≠ none → id ∉ s.world.servers →
      .erasing id ∉ s.tasks → ∀ later, (∀ e ∈ later, e.Deletes id) →
      (s.play setup later).world.database = w.database ∧
      .answered (.deleted id) ∉ (s.play setup later).tasks := by
    intro hrow hserver herasing later hlater
    have hstuck := (hkept.stuck (hkeeps hrow) hrow hserver herasing).play setup hlater
    exact ⟨hstuck.database, hstuck.not_deleted⟩
  have hverdict : Verdict (outside 1).deletion id s.world r := verdict hcalm
  clear_value r
  cases hverdict with
  | missing hrow =>
    refine Or.inl ⟨hkept.database.resolve_left fun hsame => hstored ?_, rfl⟩
    rw [← hsame, hrow]
  | refused failure hrow hrefused hfailure =>
    exact Or.inr ⟨hkeeps hrow, Or.inr ⟨hrefused, failure, hfailure, rfl, hkeeps hrow⟩, hforever hrow⟩
  | completed hrow hgranted =>
    exact Or.inr ⟨hkeeps hrow,
      Or.inl ⟨hgranted, rfl, rfl, find?_erase_self _ id, entriesOf_erase_self _ id⟩, hforever hrow⟩

/--
**Which replies let a deletion through.** A request to delete a stored machine asks the provider by
one request, and if the database does not fail it is completed just when the provider has the machine
and answers this request with a success.
-/
theorem completed_iff_answered (setup : Setup) {outside : Nat → Outside} {id : MachineId} {w : World}
    {replies : Nat → Hetzner.TimedReply} {unseen : Bool} (hstored : w.database.find? id ≠ none)
    (hcalm : ∀ n, (outside n).fault = none)
    (hdeletion : (outside 1).deletion = ofReport (Hetzner.delete id replies) unseen) :
    (Hetzner.delete id replies).requests = [Hetzner.deletionRequest id] ∧
    ((carryOut setup outside id w).1 = .answered (.deleted id) ↔
      id ∈ w.servers ∧ ∃ status body,
        (replies 0).reply = .answer status body ∧ 200 ≤ status ∧ status < 300) := by
  refine ⟨rfl, ?_⟩
  have hgranted : (outside 1).deletion.Granted id w ↔ id ∈ w.servers ∧ ∃ status body,
      (replies 0).reply = .answer status body ∧ 200 ≤ status ∧ status < 300 := by
    rw [hdeletion, Granted, ofReport, Hetzner.delete_eq_ok_iff]
  rw [← hgranted]
  have hverdict : Verdict (outside 1).deletion id w (carryOut setup outside id w) := verdict hcalm
  generalize carryOut setup outside id w = r at hverdict ⊢
  cases hverdict with
  | missing hrow => exact absurd hrow hstored
  | refused _ _ hrefused => exact ⟨nofun, fun hgranted => absurd hgranted hrefused⟩
  | completed _ hgranted => exact ⟨fun _ => hgranted, fun _ => rfl⟩

/-! ## A deletion that comes to its middle -/

/-- A machine that the provider has, with its row. -/
def storedWorld : World :=
  { World.empty with database := Service.interruptedTables, servers := [1] }

/-- Nothing fails. -/
def calm (_ : Nat) : Outside := Service.calmOutside

/-- No connection is left once the provider has deleted the machine. -/
def lostAtErase (n : Nat) : Outside :=
  { Service.calmOutside with fault := if n = 2 then some .noConnection else none }

/-- Machine 1 is deleted at the provider, but its row is not. -/
def halfwayWorld : World := (carryOut Service.plainSetup lostAtErase 1 storedWorld).2

/-- The next request fails although nothing fails in the database, and the row stays. -/
theorem carryOut_halfwayWorld :
    (carryOut Service.plainSetup lostAtErase 1 storedWorld).1 = .fail (.database .noConnection) ∧
    halfwayWorld.servers = [] ∧ halfwayWorld.database.knows 1 = true ∧
    (∀ n, (calm n).fault = none) ∧
    (carryOut Service.plainSetup calm 1 halfwayWorld).1 = .fail (.provider (.refused 404 "")) ∧
    (Response.ofAnswer (.failed (.provider (.refused 404 "")))).status = 502 ∧
    (carryOut Service.plainSetup calm 1 halfwayWorld).2.database.knows 1 = true :=
  ⟨rfl, by decide +kernel, by decide +kernel, fun _ => rfl, rfl, rfl, by decide +kernel⟩

/-- A request to delete machine 1. -/
def deletionRequest : Request := ⟨.delete, ⟨"/api/v1/machines/1".toList, []⟩, [], [], false⟩

/-- The provider deletes the machine, but its answer is lost. -/
def lostReply : Outside :=
  { Service.calmOutside with deletion := ⟨.error (.request "connection reset" false), true⟩ }

/-- Two requests meet, and the first is told of a failure although the machine is deleted. -/
def halfwayEvents : List Event :=
  [.request deletionRequest "", .step 0 (calm 0), .request deletionRequest "", .step 1 (calm 0),
    .step 0 lostReply]

theorem completed_or_refused_halfwayEvents :
    storedWorld.database.find? 1 ≠ none ∧ (∀ e ∈ halfwayEvents, e.Deletes 1) ∧
    (∀ n, (calm n).fault = none) ∧
    let s := (Service.mk storedWorld [] [1]).play Service.plainSetup halfwayEvents
    s.world.database.knows 1 = true ∧ (1 : MachineId) ∉ s.world.servers ∧
    .erasing 1 ∉ s.tasks ∧
    (∃ failure, (carryOut Service.plainSetup calm 1 s.world).1 = .fail (.provider failure)) ∧
    ∀ later, (∀ e ∈ later, e.Deletes 1) →
      (s.play Service.plainSetup later).world.database = storedWorld.database ∧
      .answered (.deleted 1) ∉ (s.play Service.plainSetup later).tasks := by
  have hstored : storedWorld.database.find? 1 ≠ none := by
    rw [Ne, find?_eq_none_iff]
    decide +kernel
  have hevents : ∀ e ∈ halfwayEvents, e.Deletes 1 := by decide +kernel
  refine ⟨hstored, hevents, fun _ => rfl, ?_⟩
  intro s
  have hknows : s.world.database.knows 1 = true := by decide +kernel
  have hserver : (1 : MachineId) ∉ s.world.servers := by decide +kernel
  have herasing : .erasing 1 ∉ s.tasks := by
    have htasks : s.tasks =
        [.fail (.provider (.request "connection reset" false)), .dismissing 1] := by rfl
    rw [htasks]
    simp [Task.fail]
  obtain ⟨herased, -⟩ | ⟨-, ⟨hgranted, -⟩ | ⟨-, failure, -, hrefused, -⟩, hforever⟩ :=
    completed_or_refused Service.plainSetup [1] calm hstored hevents fun _ => rfl
  · exact absurd hknows (by rw [herased]; decide +kernel)
  · exact absurd hgranted.1 hserver
  · exact ⟨hknows, hserver, herasing, ⟨failure, congrArg Prod.fst hrefused⟩,
      hforever hserver herasing⟩

end Deletion

end Api

end Provisioner
