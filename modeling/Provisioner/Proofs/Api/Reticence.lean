import Mathlib.Data.List.InsertIdx
import Provisioner.Proofs.Api.Discretion
import Provisioner.Proofs.Viewer.Broadcast

/-!
# Failures of the database are not told

Why a statement of the database fails is known from outside, with a text. Whoever makes a request
learns the kind of the failure at most: `wordless` takes the texts out of everything that holds
them, and a step goes the same way without them (`Task.step_wordless`). So two executions in which
the same statements fail for reasons of the same kinds give the same responses, whatever the texts
say (`failures_untold`).
-/

namespace Provisioner

/-! ## Failures without their texts -/

/-- The failure without what it says. -/
def DatabaseFailure.wordless : DatabaseFailure → DatabaseFailure
  | rowNotFound => rowNotFound
  | refused code constraint _ => refused code constraint ""
  | other _ => other ""

/-- The failure without what it says. -/
def StoreFailure.wordless : StoreFailure → StoreFailure
  | write operation _ => write operation ""
  | read operation _ => read operation ""

@[simp] theorem DatabaseFailure.wordless_wordless (failure : DatabaseFailure) :
    failure.wordless.wordless = failure.wordless := by
  cases failure <;> rfl

@[simp] theorem StoreFailure.wordless_wordless (failure : StoreFailure) :
    failure.wordless.wordless = failure.wordless := by
  cases failure <;> rfl

namespace World

variable (w : World) (fault : Option DatabaseFailure)

/-- A script learns only whether its writes succeed. -/
theorem scriptStep_wordless (id : MachineId) (script : Script) :
    w.scriptStep id (fault.map DatabaseFailure.wordless) script = w.scriptStep id fault script := by
  cases script with
  | write call next => cases fault <;> rfl
  | done | notify next => rfl

theorem runStep_wordless (n : Nat) :
    w.runStep n (fault.map DatabaseFailure.wordless) = w.runStep n fault := by
  unfold runStep
  simp only [scriptStep_wordless]

end World

namespace Api

/-- The failure without what the database says. -/
def Failure.wordless : Failure → Failure
  | database cause => database cause.wordless
  | store cause => store cause.wordless
  | failure => failure

@[simp] theorem Failure.wordless_wordless (failure : Failure) :
    failure.wordless.wordless = failure.wordless := by
  cases failure <;> simp [wordless]

/-- **The answer to a failure does not hang on what the database says.** -/
@[simp] theorem Failure.rejection_wordless (failure : Failure) :
    failure.wordless.rejection = failure.rejection := by
  cases failure with
  | database cause => cases cause <;> rfl
  | store cause => rfl
  | machine cause | provider cause | badRequest reason => rfl

/-- What a task comes to, without what the database says. -/
def Answer.wordless : Answer → Answer
  | failed failure => failed failure.wordless
  | answer => answer

@[simp] theorem Answer.wordless_wordless (answer : Answer) :
    answer.wordless.wordless = answer.wordless := by
  cases answer <;> simp [wordless]

@[simp] theorem Response.ofAnswer_wordless (answer : Answer) :
    ofAnswer answer.wordless = ofAnswer answer := by
  cases answer with
  | failed failure =>
    simp only [Answer.wordless, ofAnswer, ofFailure, Failure.rejection_wordless]
  | _ => rfl

/-- What comes from outside, without what the database says. -/
def Outside.wordless (o : Outside) : Outside :=
  { o with fault := o.fault.map DatabaseFailure.wordless }

namespace Task

/-- A request that is being carried out, without what the database says. -/
def wordless : Task → Task
  | repairing id failure => repairing id failure.wordless
  | wakingFailed id failure => wakingFailed id failure.wordless
  | answered answer => answered answer.wordless
  | t => t

/-- Two steps come to the same, but for what the database says. -/
structure Alike (next next' : Task × World) : Prop where
  task : next.1.wordless = next'.1.wordless
  world : next.2 = next'.2

variable {setup : Setup} {o o' : Outside} {t t' : Task} {w : World}

namespace Alike

variable {next next' next'' : Task × World}

theorem rfl : Alike next next := ⟨.refl _, .refl _⟩

theorem symm (h : Alike next next') : Alike next' next := ⟨h.task.symm, h.world.symm⟩

theorem trans (h : Alike next next') (h' : Alike next' next'') : Alike next next'' :=
  ⟨h.task.trans h'.task, h.world.trans h'.world⟩

end Alike

theorem alike_statement (fault : Option DatabaseFailure) (next : Task × World) :
    Alike (statement (fault.map DatabaseFailure.wordless) w next) (statement fault w next) := by
  cases fault with
  | none => exact .rfl
  | some failure =>
    refine ⟨?_, rfl⟩
    simp [statement, fail, wordless, Answer.wordless, Failure.wordless]

/-! ## The stages of a request -/

theorem alike_clearing (row : Machine) :
    Alike ((clearing row).step setup o.wordless w) ((clearing row).step setup o w) := by
  simp only [step, Outside.wordless]
  cases o.fault <;> exact ⟨rfl, rfl⟩

theorem alike_repairing (id : MachineId) (failure : StoreFailure) :
    Alike ((repairing id failure.wordless).step setup o.wordless w)
      ((repairing id failure).step setup o w) := by
  simp only [step, Outside.wordless]
  cases o.fault with
  | none => exact ⟨congrArg (wakingFailed id) failure.wordless_wordless, rfl⟩
  | some fault => cases fault <;> exact ⟨rfl, rfl⟩

theorem alike_opening (id : MachineId) :
    Alike ((opening id).step setup o.wordless w) ((opening id).step setup o w) := by
  simp only [step, Outside.wordless]
  cases o.fault <;> exact ⟨rfl, rfl⟩

/-- **A step of a request goes the same way whatever the database says.** -/
theorem step_wordless (setup : Setup) (o : Outside) (t : Task) (w : World) :
    Alike (t.wordless.step setup o.wordless w) (t.step setup o w) := by
  cases t with
  | announcing row inputs script =>
    cases script with
    | done => exact .rfl
    | _ =>
      simp only [wordless, step, Outside.wordless, World.scriptStep_wordless]
      exact .rfl
  | clearing row => exact alike_clearing row
  | repairing id failure => exact alike_repairing id failure
  | wakingFailed id failure => cases failure <;> exact ⟨rfl, rfl⟩
  | opening id => exact alike_opening id
  | checkingHealth =>
    simp only [wordless, step, Outside.wordless, Option.isNone_map]
    exact .rfl
  | answered answer => exact ⟨congrArg answered answer.wordless_wordless, rfl⟩
  | recording | resetting | refusing | finding | erasing | listing | showing | findingLog
  | readingLog => exact alike_statement o.fault _
  | creating | starting | waking | dismissing | forgetting => exact .rfl

/-! ## The course of a request -/

/-- Requests that are alike stay alike if what comes from outside is. -/
theorem Alike.step {w' : World} (h : Alike (t, w) (t', w')) (houtside : o.wordless = o'.wordless)
    (setup : Setup) : Alike (t.step setup o w) (t'.step setup o' w') := by
  obtain ⟨htask, hworld⟩ := h
  simp only at htask hworld
  subst hworld
  -- both go the way of the one request without texts
  have h := t.step_wordless setup o w
  rw [htask, houtside] at h
  exact h.symm.trans (t'.step_wordless setup o' w)

theorem Alike.after {outside outside' : Nat → Outside}
    (houtside : ∀ n, (outside n).wordless = (outside' n).wordless) (setup : Setup) (t : Task)
    (w : World) (n : Nat) : Alike (t.after setup outside w n) (t.after setup outside' w n) := by
  induction n with
  | zero => exact .rfl
  | succ n ih => exact ih.step (houtside n) setup

theorem answer?_wordless (t : Task) : t.wordless.answer? = t.answer?.map Answer.wordless := by
  cases t <;> rfl

@[simp] theorem response?_wordless (t : Task) : t.wordless.response? = t.response? :=
  response?_of_answer? t.answer?_wordless Response.ofAnswer_wordless

theorem Alike.response?_eq {next next' : Task × World} (h : Alike next next') :
    next.1.response? = next'.1.response? := by
  rw [← response?_wordless, h.task, response?_wordless]

@[simp] theorem wordless_wordless (t : Task) : t.wordless.wordless = t.wordless := by
  cases t <;> simp [wordless]

theorem wordless_comp_wordless : wordless ∘ wordless = wordless := funext wordless_wordless

theorem newIds_wordless (t : Task) (o : Outside) : t.wordless.newIds o.wordless = t.newIds o := by
  cases t <;> rfl

end Task

/--
The response to a request and the world, after `n` steps of the task that it becomes. What comes
from outside into the n-th step, from 0 on, is `outside n`.
-/
def Start.after (setup : Setup) (outside : Nat → Outside) (w : World) (n : Nat) :
    Start → Option Response × World
  | .response r => (some r, w)
  | .task t => ((t.after setup outside w n).1.response?, (t.after setup outside w n).2)

theorem Start.after_congr {outside outside' : Nat → Outside}
    (houtside : ∀ n, (outside n).wordless = (outside' n).wordless) (setup : Setup) (start : Start)
    (w : World) (n : Nat) : start.after setup outside w n = start.after setup outside' w n := by
  cases start with
  | response r => rfl
  | task t =>
    have h := Task.Alike.after houtside setup t w n
    exact Prod.ext h.response?_eq h.world

/-- Every request comes to a response. -/
theorem Start.exists_response (setup : Setup) (outside : Nat → Outside) (start : Start)
    (w : World) : ∃ n r, (start.after setup outside w n).1 = some r := by
  cases start with
  | response r => exact ⟨0, r, rfl⟩
  | task t =>
    obtain ⟨n, answer, w', h⟩ := Task.exists_answered setup outside t w
    refine ⟨n, .ofAnswer answer, ?_⟩
    rw [after, h]
    rfl

/-! ## All that happens -/

/-- What happens next, without what the database says. -/
def Event.wordless : Event → Event
  | .step n o => .step n o.wordless
  | .run n fault => .run n (fault.map DatabaseFailure.wordless)
  | e => e

/-- The service without what the database has said. -/
def Service.wordless (s : Service) : Service := { s with tasks := s.tasks.map Task.wordless }

@[simp] theorem Service.world_wordless (s : Service) : s.wordless.world = s.world := rfl

theorem Service.responses_wordless (s : Service) :
    s.wordless.tasks.map Task.response? = s.tasks.map Task.response? := by
  unfold wordless
  rw [List.map_map]
  exact List.map_congr_left fun t _ => t.response?_wordless

/-- **An event changes the service the same way whatever the database says.** -/
theorem Service.next_wordless (setup : Setup) (s : Service) (e : Event) :
    (s.wordless.next setup e.wordless).wordless = (s.next setup e).wordless := by
  cases e with
  | request r name =>
    simp only [Event.wordless, next]
    cases Start.ofRequest r name with
    | response r => simp [wordless]
    | task t => simp [wordless]
  | step n o =>
    have hget : s.wordless.tasks[n]? = s.tasks[n]?.map Task.wordless := List.getElem?_map
    simp only [Event.wordless, next, hget]
    cases s.tasks[n]? with
    | none => simp [wordless]
    | some t =>
      obtain ⟨htask, hworld⟩ := t.step_wordless setup o s.world
      simp [wordless, htask, hworld, Task.newIds_wordless, List.map_set,
        Task.wordless_comp_wordless]
  | drop n => simp [Event.wordless, next, wordless, List.eraseIdx_map]
  | run n fault => simp [Event.wordless, next, wordless, World.runStep_wordless]

theorem Service.next_congr {s s' : Service} {e e' : Event} (hs : s.wordless = s'.wordless)
    (he : e.wordless = e'.wordless) (setup : Setup) :
    (s.next setup e).wordless = (s'.next setup e').wordless := by
  rw [← next_wordless, hs, he, next_wordless]

theorem Chronicle.wordless_withHub (c : Chronicle) (hub : Hub) :
    (c.withHub hub).service.wordless =
      { c.service.wordless with world := { c.service.wordless.world with hub } } := rfl

end Api

open Api

/-- What happens next, without what the database says. -/
def Happening.wordless : Happening → Happening
  | event e => event e.wordless
  | viewer a h => viewer a h

namespace Broadcast

/-- Two broadcasts are the same, but for their journals and what the database has said. -/
structure Alike (b b' : Broadcast) : Prop where
  service : b.chronicle.service.wordless = b'.chronicle.service.wordless
  followers : b.followers = b'.followers

variable {b b' : Broadcast}

theorem Alike.scene_eq (h : b.Alike b') : b.scene = b'.scene := by
  have hworld : b.chronicle.service.world = b'.chronicle.service.world := by
    rw [← Service.world_wordless, h.service, Service.world_wordless]
  unfold scene
  rw [hworld, h.followers]

/-- **Broadcasts that are alike stay alike.** -/
theorem Alike.next (h : b.Alike b') {a a' : Happening} (ha : a.wordless = a'.wordless)
    (setup : Setup) : (b.next setup a).Alike (b'.next setup a') := by
  cases a with
  | event e =>
    cases a' with
    | viewer => cases ha
    | event e' =>
      have he : e.wordless = e'.wordless := Happening.event.inj ha
      refine ⟨?_, h.followers⟩
      simp only [Broadcast.next, Chronicle.service_next]
      exact Service.next_congr h.service he setup
  | viewer a =>
    cases a' with
    | event => cases ha
    | viewer a' =>
      obtain rfl : a = a' := Happening.viewer.inj ha
      -- what a viewer does hangs on the scene, in which no texts are
      refine ⟨?_, ?_⟩
      · show (b.chronicle.withHub (b.scene.act a).world.hub).service.wordless =
          (b'.chronicle.withHub (b'.scene.act a).world.hub).service.wordless
        rw [Chronicle.wordless_withHub, Chronicle.wordless_withHub, h.service, h.scene_eq]
      · show (b.scene.act a).followers = (b'.scene.act a).followers
        rw [h.scene_eq]

theorem Alike.play {history history' : List Happening}
    (hhistory : history.map Happening.wordless = history'.map Happening.wordless)
    (h : b.Alike b') (setup : Setup) : (b.play setup history).Alike (b'.play setup history') := by
  induction history generalizing b b' history' with
  | nil =>
    obtain rfl := List.map_eq_nil_iff.mp hhistory.symm
    exact h
  | cons a history ih =>
    obtain ⟨a', rest', rfl, ha, hrest⟩ := List.map_eq_cons_iff.mp hhistory.symm
    rw [play_cons, play_cons]
    exact ih hrest.symm (h.next ha.symm setup)

theorem Alike.responses_eq (h : b.Alike b') :
    b.chronicle.service.tasks.map Task.response? =
      b'.chronicle.service.tasks.map Task.response? := by
  rw [← Service.responses_wordless, h.service, Service.responses_wordless]

end Broadcast

namespace Api

/-! ## Executions that differ in texts alone -/

/--
**What the database says about a failure is told to nobody.** The same statements fail, for reasons
of the same kinds, but with any texts.

* A request that is carried out by itself comes to the same response after the same steps, and
  leaves the same world.
* If requests and runs go on in any order and viewers look on, all requests have the same responses,
  and viewers see the same.
-/
theorem failures_untold (setup : Setup) :
    (∀ (request : Request) (newName : String) (w : World) (outside outside' : Nat → Outside),
      (∀ n, (outside n).wordless = (outside' n).wordless) →
      (∃ n r, ((Start.ofRequest request newName).after setup outside w n).1 = some r ∧
        ((Start.ofRequest request newName).after setup outside' w n).1 = some r) ∧
      ∀ n, (Start.ofRequest request newName).after setup outside w n =
        (Start.ofRequest request newName).after setup outside' w n) ∧
    ∀ (b : Broadcast) (history history' : List Happening),
      history.map Happening.wordless = history'.map Happening.wordless →
      (b.play setup history).chronicle.service.tasks.map Task.response? =
        (b.play setup history').chronicle.service.tasks.map Task.response? ∧
      (b.play setup history).scene = (b.play setup history').scene := by
  refine ⟨?_, ?_⟩
  · intro request newName w outside outside' houtside
    have hsame := Start.after_congr houtside setup (Start.ofRequest request newName) w
    obtain ⟨n, r, hr⟩ :=
      Start.exists_response setup outside (Start.ofRequest request newName) w
    exact ⟨⟨n, r, hr, hsame n ▸ hr⟩, hsame⟩
  · intro b history history' hhistory
    have halike : (b.play setup history).Alike (b.play setup history') :=
      Broadcast.Alike.play hhistory ⟨rfl, rfl⟩ setup
    exact ⟨halike.responses_eq, halike.scene_eq⟩

/-- From outside into a reprovision whose second statement, which clears the log, fails. -/
def clearingFails (text : String) (n : Nat) : Outside :=
  .ofFault (if n = 1 then some (.other text) else none) (.taking 40)

/-- That reprovision among requests and runs. -/
def clearingFailed (text : String) : List Happening :=
  .event (.request reprovisionRequest "db") ::
    (List.range 4).map fun n => .event (.step 0 (clearingFails text n))

theorem failures_untold_clearing :
    let reset := "connection reset by peer"
    let refused := "password authentication failed for user \"deploy\""
    let setup : Setup := ⟨.plain, "hetzner", "1.0.0"⟩
    let b : Broadcast := .opening (.booted (readyWith .empty).database [1] [1])
    let after (text : String) := (Start.ofRequest reprovisionRequest "db").after setup
      (clearingFails text) (readyWith .empty)
    (∀ n, (clearingFails reset n).wordless = (clearingFails refused n).wordless) ∧
    (clearingFailed reset).map Happening.wordless =
      (clearingFailed refused).map Happening.wordless ∧
    (after reset 4).1.map (·.status) = some 500 ∧
    after reset 4 = after refused 4 ∧
    (b.play setup (clearingFailed reset)).chronicle.service.tasks.map Task.response? =
      (b.play setup (clearingFailed refused)).chronicle.service.tasks.map Task.response? := by
  intro reset refused setup b after
  have houtside : ∀ n, (clearingFails reset n).wordless = (clearingFails refused n).wordless := by
    intro n
    unfold clearingFails
    split <;> rfl
  have hhistory : (clearingFailed reset).map Happening.wordless =
      (clearingFailed refused).map Happening.wordless := rfl
  obtain ⟨halone, hamong⟩ := failures_untold setup
  obtain ⟨-, hsame⟩ := halone reprovisionRequest "db" (readyWith .empty) _ _ houtside
  exact ⟨houtside, hhistory, by decide +kernel, hsame 4, (hamong b _ _ hhistory).1⟩

end Api

end Provisioner
