import Provisioner.Proofs.Api.Exclusion
import Provisioner.Proofs.Hub.History

/-!
# A deleted machine does not come back

The provider never hands out an id twice. So from the moment on at which a request to delete a
machine has found its row, nobody will record the machine again, and once the row is deleted it is
gone for good, although runs and requests of the machine may still be under way
(`Service.Removing`).

Requests and runs wake those who wait at the hub, but never wait there themselves: only sessions
make generations (`Service.signal_next`).
-/

namespace Provisioner

/-! ## The ledger of a machine that is deleted -/

namespace Ledger

variable {calm : Prop} {l l' : Ledger}

/-- The machine will not be recorded any more. -/
structure Known (l : Ledger) : Prop where
  issued : l.issued = true
  recordings : l.recordings = 0

/-- The machine has no row, and will have none. -/
structure Gone (l : Ledger) : Prop extends Known l where
  status : l.status = none

/-- A machine with a row has been recorded. -/
theorem Sound.known (h : l.Sound) (hstatus : l.status ≠ none) : l.Known := by
  refine ⟨h.issued (Or.inr hstatus), Nat.eq_zero_of_not_pos ?_⟩
  intro hpos
  exact hstatus (h.unrecorded hpos)

theorem Known.change (h : l.Known) (hchange : Change calm l l') : l'.Known := by
  obtain ⟨hissued, hrecordings⟩ := h
  cases hchange with
  | made hnew =>
    rw [hissued] at hnew
    cases hnew
  | unrecorded heq =>
    rw [heq, hrecordings]
    exact ⟨hissued, rfl⟩
  | recorded hone =>
    rw [hrecordings] at hone
    exact absurd hone (Nat.lt_irrefl 0)
  | same heq | restarted _ _ heq | started _ heq | dropped _ heq | repaired _ heq | stopped _ heq
  | concluded _ _ heq | erased heq =>
    rw [heq]
    exact ⟨hissued, hrecordings⟩

/-- **A row that is gone never comes back.** -/
theorem Gone.change (h : l.Gone) (hchange : Change calm l l') : l'.Gone := by
  refine ⟨h.toKnown.change hchange, ?_⟩
  have hstatus := h.status
  cases hchange with
  | recorded hone =>
    rw [h.recordings] at hone
    exact absurd hone (Nat.lt_irrefl 0)
  | restarted _ hterminal =>
    rw [hstatus] at hterminal
    cases hterminal
  | repaired _ heq | concluded _ _ heq =>
    rw [heq, hstatus]
    rfl
  | erased heq => rw [heq]
  | same heq | made _ heq | unrecorded heq | started _ heq | dropped _ heq | stopped _ heq =>
    rw [heq, hstatus]

end Ledger

/-! ## Calls of the hub -/

/-- All that those do to the hub who do not wait for a machine. -/
inductive Hub.Signal (hub : Hub) : Hub → Prop where
  | same : Signal hub hub
  | notify (id : MachineId) : Signal hub (hub.notify id)
  | remove (id : MachineId) : Signal hub (hub.remove id)

namespace Hub.Signal

variable {hub hub' : Hub} {id : MachineId}

theorem change (h : hub.Signal hub') : hub.Change hub' := by
  cases h with
  | same => exact .same
  | notify id => exact .notify id
  | remove id => exact .remove id

/-- No generation is made without waiting. -/
theorem generation?_eq_none (h : hub.Signal hub') (hnone : hub.generation? id = none) :
    hub'.generation? id = none := by
  cases h with
  | same => exact hnone
  | notify other =>
    by_cases hid : id = other
    · rw [← hid, notify_of_none hnone, hnone]
    · rw [generation?_notify hub hid, hnone]
  | remove other =>
    by_cases hid : id = other
    · rw [← hid, generation?_remove_self]
    · rw [generation?_remove hub hid, hnone]

end Hub.Signal

theorem World.signal_runStep (w : World) (n : Nat) (fault : Option DatabaseFailure) :
    w.hub.Signal (w.runStep n fault).hub := by
  have hstep := w.runStep_spec n fault
  generalize w.runStep n fault = w' at hstep
  cases hstep with
  | idle | failed | written => exact .same
  | notified => exact .notify _

namespace Api

open Database

/-! ## The steps of a request -/

namespace Task

/-- The machine whose row a request has found and is to delete. -/
def removing? : Task → Option MachineId
  | .dismissing id | .erasing id => some id
  | _ => none

/-- The machine whose row a request has deleted. -/
def removed? : Task → Option MachineId
  | .forgetting id | .answered (.deleted id) => some id
  | _ => none

/-- All that a step of a request does to the hub, and how it comes to delete a row. -/
inductive Leads (w : World) (t : Task) : Task → World → Prop where
  | found (id : MachineId) (hrow : w.database.find? id ≠ none) : Leads w t (.dismissing id) w
  | dismissed {w' : World} (id : MachineId) (ht : t = .dismissing id) (hhub : w'.hub = w.hub) :
      Leads w t (.erasing id) w'
  | erased {w' : World} (id : MachineId) (ht : t = .erasing id) (hhub : w'.hub = w.hub)
      (hrow : w'.database.find? id = none) : Leads w t (.forgetting id) w'
  | forgotten {w' : World} (id : MachineId) (ht : t = .forgetting id)
      (hhub : w'.hub = w.hub.remove id) : Leads w t (.answered (.deleted id)) w'
  | rested : Leads w t t w
  | other {t' : Task} {w' : World} (hsignal : w.hub.Signal w'.hub) (hremoving : t'.removing? = none)
      (hremoved : t'.removed? = none) : Leads w t t' w'

section Leads

variable {setup : Setup} {o : Outside} {t t' : Task} {w w' : World} {id : MachineId}

theorem leads_statement {fault : Option DatabaseFailure} {r : Task × World}
    (h : Leads w t r.1 r.2) : Leads w t (statement fault w r).1 (statement fault w r).2 := by
  unfold statement
  split
  · exact .other .same rfl rfl
  · exact h

theorem leads_withMachine {next : Machine → Task}
    (h : ∀ m, w.database.find? id = some m → Leads w t (next m) w) :
    Leads w t (withMachine w id next) w := by
  unfold withMachine
  split
  · rename_i m hm
    exact h m hm
  · exact .other .same rfl rfl

theorem leads_announcing {row : Machine} {inputs : Inputs} {script : Script} :
    Leads w t ((announcing row inputs script).step setup o w).1
      ((announcing row inputs script).step setup o w).2 := by
  cases script with
  | done => exact .other .same rfl rfl
  | notify next => exact .other (.notify row.id) rfl rfl
  | write call next =>
    refine .other ?_ rfl rfl
    show w.hub.Signal (w.write row.id call o.fault).2.hub
    unfold World.write
    cases o.fault <;> exact .same

theorem leads_dismissing : Leads w (.dismissing id) ((dismissing id).step setup o w).1
    ((dismissing id).step setup o w).2 := by
  obtain ⟨servers, ⟨failure, hstep⟩ | hstep⟩ := step_dismissing_cases setup o id w
  · rw [hstep]
    exact .other .same rfl rfl
  · rw [hstep]
    exact .dismissed id rfl rfl

/-- **What a step of a request leads to.** -/
theorem leads_step (setup : Setup) (o : Outside) (t : Task) (w : World) :
    Leads w t (t.step setup o w).1 (t.step setup o w).2 := by
  cases t with
  | creating name inputs =>
    unfold step
    cases o.creation.result <;> exact .other .same rfl rfl
  | recording server inputs =>
    refine leads_statement ?_
    split <;> exact .other .same rfl rfl
  | announcing row inputs script => exact leads_announcing
  | starting row run => exact .other .same rfl rfl
  | resetting id =>
    unfold step
    refine leads_statement ?_
    cases hrow : (w.database.beginReprovision id).1 with
    | some row =>
      simp only [hrow]
      exact .other .same rfl rfl
    | none =>
      simp only [hrow]
      exact .other .same rfl rfl
  | refusing id => exact leads_statement (leads_withMachine fun _ _ => .other .same rfl rfl)
  | clearing row =>
    unfold step World.write
    cases o.fault <;> exact .other .same rfl rfl
  | waking row => exact .other (.notify row.id) rfl rfl
  | repairing id failure =>
    unfold step World.write
    cases o.fault <;> exact .other .same rfl rfl
  | wakingFailed id failure => exact .other (.notify id) rfl rfl
  | finding id =>
    refine leads_statement (leads_withMachine fun m hm => .found id ?_)
    rw [hm]
    exact nofun
  | dismissing id => exact leads_dismissing
  | erasing id =>
    refine leads_statement ?_
    exact .erased id rfl rfl (find?_erase_self w.database id)
  | forgetting id => exact .forgotten id rfl rfl
  | listing => exact leads_statement (.other .same rfl rfl)
  | showing id => exact leads_statement (leads_withMachine fun _ _ => .other .same rfl rfl)
  | findingLog id after => exact leads_statement (leads_withMachine fun _ _ => .other .same rfl rfl)
  | readingLog id after => exact leads_statement (.other .same rfl rfl)
  | opening id =>
    unfold step
    cases o.fault with
    | some failure => exact .other .same rfl rfl
    | none =>
      simp only
      split <;> exact .other .same rfl rfl
  | checkingHealth => exact .other .same rfl rfl
  | answered answer => exact .rested

theorem Leads.signal (h : Leads w t t' w') : w.hub.Signal w'.hub := by
  cases h with
  | found | rested => exact .same
  | dismissed _ _ hhub | erased _ _ hhub =>
    rw [hhub]
    exact .same
  | forgotten id _ hhub =>
    rw [hhub]
    exact .remove id
  | other hsignal => exact hsignal

/-- A request is to delete a row only after it has found it. -/
theorem Leads.removing (h : Leads w t t' w') (ht' : t'.removing? = some id) :
    t.removing? = some id ∨ w.database.find? id ≠ none := by
  cases h with
  | found other hrow =>
    cases ht'
    exact Or.inr hrow
  | dismissed other ht =>
    rw [ht]
    exact Or.inl ht'
  | rested => exact Or.inl ht'
  | erased | forgotten => cases ht'
  | other _ hremoving =>
    rw [hremoving] at ht'
    cases ht'

/-- A request has deleted a row only if there is none then. -/
theorem Leads.removed (h : Leads w t t' w') (ht' : t'.removed? = some id) :
    t.removed? = some id ∨ (t.removing? = some id ∧ w'.database.find? id = none) := by
  cases h with
  | erased other ht _ hrow =>
    cases ht'
    rw [ht]
    exact Or.inr ⟨rfl, hrow⟩
  | forgotten other ht =>
    rw [ht]
    exact Or.inl ht'
  | rested => exact Or.inl ht'
  | found | dismissed => cases ht'
  | other _ _ hremoved =>
    rw [hremoved] at ht'
    cases ht'

/-- A deletion has just been completed only if the generation of its machine was removed. -/
theorem Leads.deleted (h : Leads w t (.answered (.deleted id)) w') :
    t = .answered (.deleted id) ∨ w'.hub.generation? id = none := by
  cases h with
  | forgotten _ _ hhub =>
    rw [hhub, Hub.generation?_remove_self]
    exact Or.inr rfl
  | rested => exact Or.inl rfl
  | other _ _ hremoved => cases hremoved

end Leads

end Task

/-! ## The service -/

namespace Service

variable {setup : Setup} {s : Service} {e : Event} {id : MachineId}

/-- Requests and runs make no generation at the hub. -/
theorem signal_next (setup : Setup) (s : Service) (e : Event) :
    s.world.hub.Signal (s.next setup e).world.hub := by
  cases e with
  | request r name =>
    simp only [next]
    cases Start.ofRequest r name <;> exact .same
  | step n o =>
    simp only [next]
    cases s.tasks[n]? with
    | none => exact .same
    | some t => exact (t.leads_step setup o s.world).signal
  | drop n => exact .same
  | run n fault => exact s.world.signal_runStep n fault

/-- A request that is there after an event was there before, or is new, or has made a step. -/
inductive Comes (setup : Setup) (s : Service) (t' : Task) (w' : World) : Prop where
  | stayed (h : t' ∈ s.tasks)
  | arrived (hremoving : t'.removing? = none) (hremoved : t'.removed? = none)
  | stepped {t : Task} (h : t ∈ s.tasks) (hleads : t.Leads s.world t' w')

theorem comes_next {t' : Task} (h : t' ∈ (s.next setup e).tasks) :
    Comes setup s t' (s.next setup e).world := by
  cases e with
  | request r name =>
    simp only [next] at h ⊢
    cases hstart : Start.ofRequest r name with
    | response _ =>
      rw [hstart] at h
      exact .stayed h
    | task t =>
      rw [hstart] at h
      rcases List.mem_append.mp h with h | h
      · exact .stayed h
      · rw [List.mem_singleton.mp h]
        cases Start.initial_ofRequest hstart <;> exact .arrived rfl rfl
  | step n o =>
    simp only [next] at h ⊢
    cases hn : s.tasks[n]? with
    | none =>
      rw [hn] at h
      exact .stayed h
    | some t =>
      rw [hn] at h
      rcases List.mem_or_eq_of_mem_set h with h | rfl
      · exact .stayed h
      · exact .stepped (List.mem_of_getElem? hn) (t.leads_step setup o s.world)
  | drop n => exact .stayed (List.mem_of_mem_eraseIdx h)
  | run n fault => exact .stayed h

/-- A deletion has just been completed only if the generation of its machine was removed. -/
theorem deleted_next (h : .answered (.deleted id) ∈ (s.next setup e).tasks) :
    .answered (.deleted id) ∈ s.tasks ∨ (s.next setup e).world.hub.generation? id = none := by
  cases comes_next h with
  | stayed h => exact Or.inl h
  | arrived _ hremoved => cases hremoved
  | stepped ht hleads =>
    refine hleads.deleted.imp_left ?_
    rintro rfl
    exact ht

/-- The machines of requests that delete rows are known, and those whose rows are deleted gone. -/
structure Removing (s : Service) : Prop where
  known : ∀ t ∈ s.tasks, ∀ id, t.removing? = some id → (s.ledger id).Known
  gone : ∀ t ∈ s.tasks, ∀ id, t.removed? = some id → (s.ledger id).Gone

theorem removing_booted (db : Database) (servers issued : List MachineId) :
    (booted db servers issued).Removing :=
  ⟨fun _ ht => absurd ht List.not_mem_nil, fun _ ht => absurd ht List.not_mem_nil⟩

theorem Removing.next (h : s.Removing) (hs : s.Exclusive) (he : s.Fresh e) :
    (s.next setup e).Removing := by
  have hchange : ∀ id, Ledger.Change e.Calm (s.ledger id) ((s.next setup e).ledger id) :=
    fun id => change_next hs.orderly setup he id
  refine ⟨fun t' ht' id hid => ?_, fun t' ht' id hid => ?_⟩
  · cases comes_next ht' with
    | stayed ht => exact (h.known t' ht id hid).change (hchange id)
    | arrived hremoving =>
      rw [hremoving] at hid
      cases hid
    | stepped ht hleads =>
      rcases hleads.removing hid with hbefore | hrow
      · exact (h.known _ ht id hbefore).change (hchange id)
      · refine ((hs.sound id).known ?_).change (hchange id)
        exact fun hnone => hrow (find?_eq_none_iff.mpr hnone)
  · cases comes_next ht' with
    | stayed ht => exact (h.gone t' ht id hid).change (hchange id)
    | arrived _ hremoved =>
      rw [hremoved] at hid
      cases hid
    | stepped ht hleads =>
      rcases hleads.removed hid with hbefore | ⟨hremoving, hrow⟩
      · exact (h.gone _ ht id hbefore).change (hchange id)
      · exact ⟨(h.known _ ht id hremoving).change (hchange id), find?_eq_none_iff.mp hrow⟩

end Service

end Api

end Provisioner
