import Provisioner.Proofs.Api.Conclusion
import Provisioner.Proofs.Viewer.Round

/-!
# Viewers of the service

A *broadcast* is the service with its journal and the sessions that follow its machines. Events of
the service and acts of viewers happen in any order (`Broadcast.next`); viewers change nothing of
the service but the hub.

* `Broadcast.Throughout` is a condition on each happening in the broadcast that it meets, and
  `Throughout.play` the induction along a history.
* What a session has read was stored when it was read (`Broadcast.stored_of_received`).
-/

namespace Provisioner

open Database

/-! ## The hub -/

namespace Api.Chronicle

variable {c : Chronicle}

/-- The chronicle with another hub. -/
def withHub (c : Chronicle) (hub : Hub) : Chronicle :=
  { c with service := { c.service with world := { c.service.world with hub } } }

theorem acts_withHub {hub : Hub} {id : MachineId} {part : Part} {job : Nat}
    (h : (c.withHub hub).Acts id part job) : c.Acts id part job := by
  cases h with
  | request t h hpart => exact .request t h hpart
  | run active h hid hopen hpart => exact .run active h hid hopen hpart

theorem change_withHub (c : Chronicle) (hub : Hub) : Change c (c.withHub hub) :=
  .rests rfl rfl rfl fun _ _ _ => acts_withHub

theorem spares_withHub (c : Chronicle) (hub : Hub) (id : MachineId) : Spares c (c.withHub hub) id :=
  ⟨rfl, fun hnone => hnone⟩

theorem Regular.withHub (h : c.Regular) (hub : Hub) : (c.withHub hub).Regular := by
  refine h.change (change_withHub c hub) ⟨?_, h.exclusive.sound⟩ ⟨h.paired.tasks, h.paired.runs⟩
    (h.distinct.of_subset (fun _ _ hpending => hpending) rfl rfl)
  exact ⟨h.exclusive.orderly.tasks, h.exclusive.orderly.runs⟩

end Api.Chronicle

open Api

/-! ## Broadcasts -/

/-- The service with its journal and the sessions that follow its machines. -/
structure Broadcast where
  chronicle : Chronicle
  followers : List Follower

/-- What can happen next. -/
inductive Happening where
  | event (e : Event)
  | viewer (a : Act) (hviewer : a.Within fun _ => False)

namespace Broadcast

variable {setup : Setup} {b : Broadcast} {n : Nat} {f f' : Follower}

/-- A broadcast that nobody follows yet. -/
def opening (c : Chronicle) : Broadcast := ⟨c, []⟩

/-- What the viewers see. -/
def scene (b : Broadcast) : Scene := ⟨b.chronicle.service.world, b.followers⟩

/-- The broadcast after a happening. -/
def next (setup : Setup) (b : Broadcast) : Happening → Broadcast
  | .event e => { b with chronicle := b.chronicle.next setup e }
  | .viewer a _ => ⟨b.chronicle.withHub (b.scene.act a).world.hub, (b.scene.act a).followers⟩

/-- The broadcast after some happenings. -/
def play (setup : Setup) (b : Broadcast) (history : List Happening) : Broadcast :=
  history.foldl (next setup) b

theorem play_cons (setup : Setup) (b : Broadcast) (h : Happening) (history : List Happening) :
    b.play setup (h :: history) = (b.next setup h).play setup history := rfl

theorem play_append (setup : Setup) (b : Broadcast) (before after : List Happening) :
    b.play setup (before ++ after) = (b.play setup before).play setup after := List.foldl_append

/-- Nothing of an act of a viewer is lost. -/
theorem scene_viewer (a : Act) (ha : a.Within fun _ => False) :
    (b.next setup (.viewer a ha)).scene = b.scene.act a := by
  have hturn : ∀ m move, b.scene.turn m move =
      ⟨{ b.chronicle.service.world with hub := (b.scene.turn m move).world.hub },
        (b.scene.turn m move).followers⟩ := by
    intro m move
    unfold Scene.turn
    cases b.scene.followers[m]? <;> rfl
  cases a with
  | deed d => exact ha.elim
  | join id snapshot now => rfl
  | step m fails | resume m cause fails | answer m payload => exact (hturn m _).symm

/-! ## Histories -/

/-- The provider hands out no id that it has handed out before. -/
def Fresh (b : Broadcast) : Happening → Prop
  | .event e => b.chronicle.service.Fresh e
  | .viewer _ _ => True

instance (h : Happening) : Decidable (b.Fresh h) :=
  match h with
  | .event e => inferInstanceAs (Decidable (b.chronicle.service.Fresh e))
  | .viewer _ _ => isTrue trivial

/-- Each happening of a history satisfies `p` in the broadcast that it meets. -/
def Throughout (setup : Setup) (p : Broadcast → Happening → Prop) :
    Broadcast → List Happening → Prop
  | _, [] => True
  | b, h :: history => p b h ∧ Throughout setup p (b.next setup h) history

section Throughout

variable {p q : Broadcast → Happening → Prop} {history before after : List Happening}

instance decidableThroughout (setup : Setup) (p : Broadcast → Happening → Prop)
    [∀ b h, Decidable (p b h)] :
    (b : Broadcast) → (history : List Happening) → Decidable (Throughout setup p b history)
  | _, [] => isTrue trivial
  | b, h :: history =>
    have := decidableThroughout setup p (b.next setup h) history
    inferInstanceAs (Decidable (p b h ∧ Throughout setup p (b.next setup h) history))

/-- **What every happening keeps holds after any history.** -/
theorem Throughout.play {I : Broadcast → Prop}
    (hstep : ∀ b h, p b h → I b → I (b.next setup h)) (h : Throughout setup p b history)
    (hb : I b) : I (b.play setup history) := by
  induction history generalizing b with
  | nil => exact hb
  | cons a history ih =>
    rw [play_cons]
    exact ih h.2 (hstep b a h.1 hb)

theorem Throughout.and (hp : Throughout setup p b history) (hq : Throughout setup q b history) :
    Throughout setup (fun b h => p b h ∧ q b h) b history := by
  induction history generalizing b with
  | nil => trivial
  | cons a history ih => exact ⟨⟨hp.1, hq.1⟩, ih hp.2 hq.2⟩

theorem throughout_append : Throughout setup p b (before ++ after) ↔
    Throughout setup p b before ∧ Throughout setup p (b.play setup before) after := by
  induction before generalizing b with
  | nil => exact ⟨fun h => ⟨trivial, h⟩, And.right⟩
  | cons a before ih => exact (and_congr_right fun _ => ih).trans and_assoc.symm

end Throughout

/-! ## The service -/

theorem change_next (hb : b.chronicle.Regular) (setup : Setup) (h : Happening) :
    Chronicle.Change b.chronicle (b.next setup h).chronicle := by
  cases h with
  | event e => exact hb.change_next setup e
  | viewer a _ => exact Chronicle.change_withHub _ _

theorem regular_next (hb : b.chronicle.Regular) {h : Happening} (hfresh : b.Fresh h) :
    (b.next setup h).chronicle.Regular := by
  cases h with
  | event e => exact hb.next hfresh
  | viewer a _ => exact hb.withHub _

/-- The service stays regular, and its journal only grows. -/
theorem regular_play (hb : b.chronicle.Regular) {history : List Happening}
    (hfresh : Throughout setup Fresh b history) :
    (b.play setup history).chronicle.Regular ∧
      b.chronicle.journal <+: (b.play setup history).chronicle.journal := by
  refine hfresh.play (I := fun b' => b'.chronicle.Regular ∧
    b.chronicle.journal <+: b'.chronicle.journal) ?_ ⟨hb, List.prefix_rfl⟩
  rintro b' h hh ⟨hregular, hprefix⟩
  exact ⟨regular_next hregular hh,
    hprefix.trans (change_next hregular setup h).prefix_journal⟩

/-! ## One session -/

/--
The n-th session after a happening has just begun or has made a move. If it is not as before the
tables are.
-/
theorem getElem?_next {h : Happening} (hf : (b.next setup h).followers[n]? = some f') :
    (∃ id snapshot now, f' = .start id snapshot now) ∨
      ∃ f hub, b.followers[n]? = some f ∧
        f.Move b.chronicle.database b.chronicle.service.world.hub f' hub ∧
        (f' = f ∨ (b.next setup h).chronicle.database = b.chronicle.database) := by
  cases h with
  | event e => exact .inr ⟨f', _, hf, .idle, .inl rfl⟩
  | viewer a _ =>
    refine (Scene.getElem?_act hf).imp_right ?_
    rintro ⟨f, hub, hf, hmove, -⟩
    exact ⟨f, hub, hf, hmove, .inr rfl⟩

end Broadcast

namespace Follower

variable {db : Database} {hub hub' : Hub} {f f' : Follower}

/-- The entries that a session has read, first one first. -/
def received (f : Follower) : List LogEntry :=
  match f.session.stage with
  | .forwarding _ _ left => f.forwarded ++ left
  | _ => f.forwarded

theorem received_of_forwarding {wake : Handle} {current : Snapshot} {left : List LogEntry}
    (h : f.session.stage = .forwarding wake current left) : f.received = f.forwarded ++ left := by
  unfold received
  rw [h]

theorem mem_received_of_mem {e : LogEntry} (he : e ∈ f.forwarded) : e ∈ f.received := by
  unfold received
  split
  · exact List.mem_append_left _ he
  · exact he

theorem Sound.sorted_received (h : f.Sound db) : f.received.Pairwise (·.id < ·.id) := by
  unfold received
  split
  · rename_i wake current left hstage
    have hpending := h.pending wake current left hstage
    refine List.pairwise_append.mpr ⟨h.sorted, hpending.sorted, fun e he e' he' => ?_⟩
    exact Int.lt_of_le_of_lt (h.le_cursor e he) (hpending.above e' he')
  · exact h.sorted

/-- What a session comes to have read is stored for its machine. -/
theorem Move.mem_received (h : Move db hub f f' hub') {e : LogEntry} (he : e ∈ f'.received) :
    e ∈ f.received ∨ e ∈ db.entriesOf f.session.machine := by
  cases h with
  | idle => exact .inl he
  | read hstage =>
    rcases List.mem_append.mp he with he | he
    · exact .inl (mem_received_of_mem he)
    · obtain ⟨hmem, hmachine, -⟩ := mem_entriesAfter.mp he
      exact .inr (mem_entriesOf.mpr ⟨hmem, hmachine⟩)
  | @forward _ _ entry left hstage =>
    replace he : e ∈ (f.forwarded ++ [entry]) ++ left := he
    rw [List.append_assoc] at he
    rw [received_of_forwarding hstage]
    exact .inl he
  | answer _ _ => exact .inl he
  | _ => exact .inl (mem_received_of_mem he)

end Follower

namespace Broadcast

/-- **What a session has read was stored for its machine when it was read.** -/
theorem stored_of_received {setup : Setup} {c : Chronicle} {n : Nat} {f : Follower}
    (history : List Happening)
    (hf : ((opening c).play setup history).followers[n]? = some f) {e : LogEntry}
    (he : e ∈ f.received) :
    ∃ before, before <+: history ∧
      ∃ g, ((opening c).play setup before).followers[n]? = some g ∧
        g.session.machine = f.session.machine ∧ e ∈ g.received ∧
        e ∈ ((opening c).play setup before).chronicle.database.entriesOf f.session.machine := by
  -- the last happening is taken off: what was not read before it was read by it
  induction history using List.reverseRecOn generalizing f with
  | nil => cases hf
  | append_singleton history h ih =>
    have hnow := hf
    rw [play_append] at hf
    rcases getElem?_next hf with ⟨id, snapshot, now, rfl⟩ | ⟨g, hub, hg, hmove, hsame⟩
    · cases he
    · rw [hmove.machine_eq]
      by_cases hread : e ∈ g.received
      · obtain ⟨before, hbefore, hfound⟩ := ih hg hread
        exact ⟨before, hbefore.trans (List.prefix_append _ _), hfound⟩
      · have hstored := (hmove.mem_received he).resolve_left hread
        have hdatabase := hsame.resolve_left fun heq => hread (heq ▸ he)
        refine ⟨history ++ [h], List.prefix_rfl, f, hnow, hmove.machine_eq, he, ?_⟩
        rw [play_append]
        exact hdatabase ▸ hstored

end Broadcast

end Provisioner
