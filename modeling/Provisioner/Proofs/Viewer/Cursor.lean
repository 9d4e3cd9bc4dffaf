import Provisioner.Proofs.Viewer.Scene

/-!
# What a session has forwarded

A session remembers the id of the last entry that it sent and reads what lies behind it. Whatever
others do to the store meanwhile, the entries that it has forwarded are sorted by their ids, and no
entry that is stored at or below the cursor is missing among them (`Follower.Sound`).

The messages of a session are the greeting, the lines of the forwarded entries and, if it comes to
that, the status (`Follower.Spoken`).
-/

namespace Provisioner

/-! ## Messages -/

namespace Session

theorem messages_send_message (s : Session) (m : Message) :
    (s.send (.message m)).messages = s.messages ++ [m] := by
  unfold messages send
  rw [List.reverse_cons, List.filterMap_append]
  rfl

/-- Frames that hold no message do not count. -/
theorem messages_send (s : Session) (frame : Frame) (h : ∀ m, frame ≠ .message m) :
    (s.send frame).messages = s.messages := by
  unfold messages send
  rw [List.reverse_cons, List.filterMap_append]
  cases frame with
  | message m => exact absurd rfl (h m)
  | _ => exact List.append_nil _

theorem mem_messages {s : Session} {m : Message} : m ∈ s.messages ↔ Frame.message m ∈ s.sent := by
  unfold messages
  rw [List.mem_filterMap]
  constructor
  · rintro ⟨frame, hframe, hm⟩
    cases frame with
    | message m' =>
      cases hm
      exact List.mem_reverse.mp hframe
    | _ => cases hm
  · intro hm
    exact ⟨.message m, List.mem_reverse.mpr hm, rfl⟩

end Session

namespace Follower

/-- The messages about the entries that a session has forwarded. -/
def lines (f : Follower) : List Message := f.forwarded.map fun e => .log e.line

/-- A session has sent its greeting and some entries, and goes on. -/
structure Greeted (f : Follower) : Prop where
  messages : ∃ snapshot, f.session.messages = .init snapshot :: f.lines
  open_ : Frame.close ∉ f.session.sent

/-- A session has sent its greeting, some entries and a status, and is closed. -/
structure Concluded (f : Follower) (status : MachineStatus) (removed : Bool) : Prop where
  messages : ∃ snapshot, f.session.messages = .init snapshot :: f.lines ++ [.status status removed]
  closed : ∃ frames, f.session.sent = .close :: .message (.status status removed) :: frames ∧
    Frame.close ∉ frames

/-- What a session has sent, by its stage. -/
def Spoken (f : Follower) : Prop :=
  match f.session.stage with
  | .greeting _ => f.session.messages = [] ∧ f.forwarded = [] ∧ Frame.close ∉ f.session.sent
  | .ended .terminal => ∃ status removed, f.Concluded status removed
  | .ended _ => True
  | _ => f.Greeted

theorem spoken_start (id : MachineId) (snapshot : Snapshot) (now : Nat) :
    (start id snapshot now).Spoken := ⟨rfl, rfl, List.not_mem_nil⟩

theorem Greeted.send {f : Follower} (h : f.Greeted) (frame : Frame)
    (hmessage : ∀ m, frame ≠ .message m) (hclose : frame ≠ .close) (pingAt : Nat)
    (stage : Session.Stage) :
    Greeted { f with session := { f.session.send frame with stage, pingAt } } := by
  obtain ⟨⟨snapshot, hmessages⟩, hopen⟩ := h
  refine ⟨⟨snapshot, ?_⟩, ?_⟩
  · exact (Session.messages_send _ frame hmessage).trans hmessages
  · exact List.not_mem_cons_of_ne_of_not_mem (Ne.symm hclose) hopen

theorem Greeted.forward {f : Follower} (h : f.Greeted) (e : LogEntry) (stage : Session.Stage) :
    Greeted ⟨(f.session.forward e).go stage, f.forwarded ++ [e]⟩ := by
  obtain ⟨⟨snapshot, hmessages⟩, hopen⟩ := h
  refine ⟨⟨snapshot, ?_⟩, ?_⟩
  · refine (Session.messages_send_message _ _).trans ?_
    rw [hmessages]
    unfold lines
    rw [List.map_append, List.cons_append]
    rfl
  · exact List.not_mem_cons_of_ne_of_not_mem nofun hopen

/-- The status is the last message, and the close frame comes right after it. -/
theorem Greeted.conclude {f : Follower} (h : f.Greeted) (status : MachineStatus) (removed : Bool) :
    Concluded
      { f with session := (f.session.send (.message (.status status removed))).finish .terminal }
      status removed := by
  obtain ⟨⟨snapshot, hmessages⟩, hopen⟩ := h
  refine ⟨⟨snapshot, ?_⟩, f.session.sent, rfl, hopen⟩
  refine (Session.messages_send _ .close nofun).trans ?_
  refine (Session.messages_send_message _ _).trans ?_
  rw [hmessages]
  rfl

theorem Greeted.mem_sent {f : Follower} (h : f.Greeted) {e : LogEntry} (he : e ∈ f.forwarded) :
    Frame.message (.log e.line) ∈ f.session.sent := by
  obtain ⟨snapshot, hmessages⟩ := h.messages
  refine Session.mem_messages.mp ?_
  rw [hmessages]
  exact List.mem_cons_of_mem _ (List.mem_map.mpr ⟨e, he, rfl⟩)

/-- **A session speaks in this order whatever it reads.** -/
theorem Spoken.move {db : Database} {hub hub' : Hub} {f f' : Follower} (h : f.Spoken)
    (hmove : Move db hub f f' hub') : f'.Spoken := by
  cases hmove with
  | idle => exact h
  | @greet snapshot hstage =>
    unfold Spoken at h
    rw [hstage] at h
    obtain ⟨hmessages, hforwarded, hopen⟩ := h
    refine ⟨⟨snapshot, ?_⟩, List.not_mem_cons_of_ne_of_not_mem nofun hopen⟩
    refine (Session.messages_send_message _ _).trans ?_
    rw [hmessages]
    unfold lines
    rw [hforwarded]
    rfl
  | arm hstage | look hstage _ | miss hstage _ | read hstage | park hstage _ | wake hstage =>
    unfold Spoken at h
    rw [hstage] at h
    exact ⟨h.messages, h.open_⟩
  | forward hstage =>
    unfold Spoken at h
    rw [hstage] at h
    exact Greeted.forward h _ _
  | tell hstage _ =>
    unfold Spoken at h
    rw [hstage] at h
    exact ⟨_, _, Greeted.conclude h _ _⟩
  | leave _ => exact trivial
  | quit ending _ hending =>
    cases ending with
    | terminal => exact absurd rfl hending
    | _ => exact trivial
  | ping hstage now =>
    unfold Spoken at h
    rw [hstage] at h
    exact Greeted.send h .ping nofun nofun _ _
  | answer hover payload =>
    unfold Spoken at h ⊢
    cases hstage : f.session.stage with
    | greeting snapshot =>
      rw [hstage] at h
      obtain ⟨hmessages, hforwarded, hopen⟩ := h
      simp only [Session.send, hstage]
      refine ⟨?_, hforwarded, List.not_mem_cons_of_ne_of_not_mem nofun hopen⟩
      exact (Session.messages_send _ (.pong payload) nofun).trans hmessages
    | ended ending =>
      unfold Session.isOver at hover
      rw [hstage] at hover
      cases hover
    | _ =>
      rw [hstage] at h
      simp only [Session.send, hstage]
      exact Greeted.send h (.pong payload) nofun nofun _ _

/-! ## Entries -/

/-- Entries that were read for a session and are still to be sent. -/
structure Pending (db : Database) (s : Session) (left : List LogEntry) : Prop where
  sorted : left.Pairwise (·.id < ·.id)
  above : ∀ e ∈ left, s.cursor < e.id
  lt_next : ∀ e ∈ left, e.id < db.nextEntry
  machine : ∀ e ∈ left, e.machine = s.machine
  /-- No stored entry is missing between the cursor and one of them. -/
  complete : ∀ last ∈ left, ∀ e ∈ db.log, e.machine = s.machine → s.cursor < e.id →
    e.id ≤ last.id → e ∈ left

/-- What a session has forwarded is sorted and complete up to its cursor. -/
structure Sound (db : Database) (f : Follower) : Prop where
  cursor_nonneg : 0 ≤ f.session.cursor
  cursor_lt : f.session.cursor < db.nextEntry
  sorted : f.forwarded.Pairwise (·.id < ·.id)
  le_cursor : ∀ e ∈ f.forwarded, e.id ≤ f.session.cursor
  machine : ∀ e ∈ f.forwarded, e.machine = f.session.machine
  complete : ∀ e ∈ db.log, e.machine = f.session.machine → e.id ≤ f.session.cursor →
    e ∈ f.forwarded
  pending : ∀ wake current left, f.session.stage = .forwarding wake current left →
    Pending db f.session left

variable {db db' : Database} {f f' : Follower}

/-- The entries behind the cursor are just those that are still to be sent. -/
theorem pending_entriesAfter (hdb : db.LogOrdered) (s : Session) :
    Pending db s (db.entriesAfter s.machine s.cursor) where
  sorted := hdb.sorted_entriesAfter _ _
  above _ he := (Database.mem_entriesAfter.mp he).2.2
  lt_next e he := hdb.lt_next e (Database.mem_entriesAfter.mp he).1
  machine _ he := (Database.mem_entriesAfter.mp he).2.1
  complete _ _ _ he hmachine hcursor _ := Database.mem_entriesAfter.mpr ⟨he, hmachine, hcursor⟩

theorem Pending.logChange {s : Session} {left : List LogEntry} (h : Pending db s left)
    (hchange : db.LogChange db') : Pending db' s left where
  sorted := h.sorted
  above := h.above
  lt_next e he := Int.lt_of_lt_of_le (h.lt_next e he) hchange.next_le
  machine := h.machine
  complete last hlast e he hmachine hcursor hle := by
    -- an entry that was added since has an id beyond all of these
    have hold : e.id < db.nextEntry := Int.lt_of_le_of_lt hle (h.lt_next last hlast)
    exact h.complete last hlast e (hchange.mem_of_lt he hold) hmachine hcursor hle

/-- Once the first of them is sent the others are still to be sent. -/
theorem Pending.forward {s : Session} {e : LogEntry} {left : List LogEntry}
    (h : Pending db s (e :: left)) (stage : Session.Stage) :
    Pending db ((s.forward e).go stage) left := by
  obtain ⟨hfirst, hsorted⟩ := List.pairwise_cons.mp h.sorted
  refine ⟨hsorted, hfirst, ?_, ?_, ?_⟩
  · exact fun x hx => h.lt_next x (List.mem_cons_of_mem e hx)
  · exact fun x hx => h.machine x (List.mem_cons_of_mem e hx)
  · intro last hlast x hx hmachine hcursor hle
    replace hcursor : e.id < x.id := hcursor
    have habove : s.cursor < x.id := Int.lt_trans (h.above e List.mem_cons_self) hcursor
    have hmem := h.complete last (List.mem_cons_of_mem e hlast) x hx hmachine habove hle
    rcases List.mem_cons.mp hmem with rfl | hmem
    · omega
    · exact hmem

/-- An entry up to the first one is that one or lies at or below the cursor. -/
theorem Pending.eq_head {s : Session} {e x : LogEntry} {left : List LogEntry}
    (h : Pending db s (e :: left)) (hx : x ∈ db.log) (hmachine : x.machine = s.machine)
    (hle : x.id ≤ e.id) : x = e ∨ x.id ≤ s.cursor := by
  by_cases hcursor : x.id ≤ s.cursor
  · exact Or.inr hcursor
  · have hmem := h.complete e List.mem_cons_self x hx hmachine (by omega) hle
    rcases List.mem_cons.mp hmem with rfl | hmem
    · exact Or.inl rfl
    · have := (List.pairwise_cons.mp h.sorted).1 x hmem
      omega

theorem sound_start (hdb : db.LogOrdered) (id : MachineId) (snapshot : Snapshot) (now : Nat) :
    Sound db (start id snapshot now) where
  cursor_nonneg := Int.le_refl 0
  cursor_lt := hdb.next_pos
  sorted := List.Pairwise.nil
  le_cursor := nofun
  machine := nofun
  complete e he _ hle := by
    have hpos := hdb.pos e he
    replace hle : e.id ≤ 0 := hle
    omega
  pending := nofun

theorem Sound.logChange (h : Sound db f) (hchange : db.LogChange db') : Sound db' f where
  cursor_nonneg := h.cursor_nonneg
  cursor_lt := Int.lt_of_lt_of_le h.cursor_lt hchange.next_le
  sorted := h.sorted
  le_cursor := h.le_cursor
  machine := h.machine
  complete e he hmachine hle := by
    have hold : e.id < db.nextEntry := Int.lt_of_le_of_lt hle h.cursor_lt
    exact h.complete e (hchange.mem_of_lt he hold) hmachine hle
  pending wake current left hstage := (h.pending wake current left hstage).logChange hchange

/-- What a session sends besides entries, and where it goes then, does not matter. -/
theorem Sound.elsewhere (h : Sound db f) {s : Session} (hmachine : s.machine = f.session.machine)
    (hcursor : s.cursor = f.session.cursor)
    (hstage : ∀ wake current left, s.stage = .forwarding wake current left →
      Pending db s left) : Sound db { f with session := s } where
  cursor_nonneg := by
    rw [hcursor]
    exact h.cursor_nonneg
  cursor_lt := by
    rw [hcursor]
    exact h.cursor_lt
  sorted := h.sorted
  le_cursor := by
    rw [hcursor]
    exact h.le_cursor
  machine := by
    rw [hmachine]
    exact h.machine
  complete := by
    rw [hmachine, hcursor]
    exact h.complete
  pending := hstage

theorem Sound.forward {wake : Handle} {current : Snapshot} {e : LogEntry} {left : List LogEntry}
    (h : Sound db f) (hstage : f.session.stage = .forwarding wake current (e :: left)) :
    Sound db
      ⟨(f.session.forward e).go (.forwarding wake current left), f.forwarded ++ [e]⟩ := by
  have hpending := h.pending _ _ _ hstage
  have habove : f.session.cursor < e.id := hpending.above e List.mem_cons_self
  refine ⟨?_, hpending.lt_next e List.mem_cons_self, ?_, ?_, ?_, ?_, ?_⟩
  · exact Int.le_of_lt (Int.lt_of_le_of_lt h.cursor_nonneg habove)
  · refine List.pairwise_append.mpr ⟨h.sorted, List.pairwise_singleton _ _, ?_⟩
    intro x hx y hy
    rw [List.mem_singleton.mp hy]
    exact Int.lt_of_le_of_lt (h.le_cursor x hx) habove
  · intro x hx
    rcases List.mem_append.mp hx with hx | hx
    · exact Int.le_of_lt (Int.lt_of_le_of_lt (h.le_cursor x hx) habove)
    · rw [List.mem_singleton.mp hx]
      exact Int.le_refl _
  · intro x hx
    rcases List.mem_append.mp hx with hx | hx
    · exact h.machine x hx
    · rw [List.mem_singleton.mp hx]
      exact hpending.machine e List.mem_cons_self
  · intro x hx hmachine hle
    rcases hpending.eq_head hx hmachine hle with rfl | hle
    · exact List.mem_append_right _ (List.mem_singleton.mpr rfl)
    · exact List.mem_append_left _ (h.complete x hx hmachine hle)
  · rintro _ _ _ hnext
    cases hnext
    exact hpending.forward _

/-- **What a session forwards stays sorted and complete up to its cursor.** -/
theorem Sound.move {hub hub' : Hub} (h : Sound db f) (hdb : db.LogOrdered)
    (hmove : Move db hub f f' hub') : Sound db f' := by
  cases hmove with
  | idle => exact h
  | read hstage =>
    refine h.elsewhere rfl rfl ?_
    rintro _ _ _ hnext
    cases hnext
    exact pending_entriesAfter hdb _
  | forward hstage => exact h.forward hstage
  | answer _ payload =>
    refine h.elsewhere rfl rfl ?_
    intro wake current left hstage
    obtain ⟨hsorted, habove, hlt, hmachine, hcomplete⟩ := h.pending wake current left hstage
    exact ⟨hsorted, habove, hlt, hmachine, hcomplete⟩
  | _ => exact h.elsewhere rfl rfl nofun

end Follower

/-- A session is sound and has spoken in order, whatever others do. -/
structure Follower.Faithful (db : Database) (f : Follower) : Prop where
  spoken : f.Spoken
  sound : f.Sound db

/-- **Every session is faithful to the store, whatever happens.** -/
theorem Scene.faithful : Invariant (fun _ => True) (fun w => w.database.LogOrdered)
    (fun w f => f.Faithful w.database) where
  deed _ hw := (World.logChange_deed _ _).logOrdered hw
  hub hw := hw
  join id snapshot now hw :=
    ⟨Follower.spoken_start id snapshot now, Follower.sound_start hw id snapshot now⟩
  kept _ _ hf := ⟨hf.spoken, hf.sound.logChange (World.logChange_deed _ _)⟩
  beside _ _ hf := hf
  move hmove hw hf := ⟨hf.spoken.move hmove, hf.sound.move hw hmove⟩

end Provisioner
