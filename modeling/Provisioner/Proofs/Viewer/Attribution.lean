import Provisioner.Proofs.Viewer.Broadcast

/-!
# Whose lines a session has sent

A session follows its machine and not a run: if it stays connected while the machine is set back, it
has sent lines of the earlier job and goes on with those of the next. So the lines before a status
are lines of earlier jobs, which the session had read before the log was cleared, and then all lines
of the job that ended in this status (`Broadcast.lines_of_last_job`).

This takes one condition, `Broadcast.Undisturbed`: the log is not cleared between the two reads of
the session's last round. Otherwise the status of one job can come after lines of the next
(`Broadcast.lines_of_other_jobs`).
-/

namespace Provisioner

open Api Database

/-- A session has read a terminal status and is to read the entries. -/
def Session.awaitsLast (s : Session) : Bool :=
  match s.stage with
  | .reading _ current => current.status.isTerminal
  | _ => false

namespace Api.Chronicle

/--
What was sent are entries of earlier jobs, and then all entries of one job, which has ended in a
status and is over.
-/
structure Accounts (c : Chronicle) (id : MachineId) (status : MachineStatus) (job : Nat)
    (older sent : List LogEntry) : Prop where
  sent_eq : sent = older ++ c.entriesBy job id
  earlier : ∀ e ∈ older, ∃ k < job, e ∈ c.entriesBy k id
  ended : c.Ended id job status
  isOver : c.Over id job

variable {c c' : Chronicle} {id : MachineId} {status : MachineStatus} {job : Nat}
  {older sent : List LogEntry}

theorem Accounts.change (h : c.Accounts id status job older sent) (hc' : c'.service.Exclusive)
    (hchange : Change c c') : c'.Accounts id status job older sent := by
  obtain ⟨hover, hentries⟩ := h.isOver.change hc' hchange
  refine ⟨hentries ▸ h.sent_eq, ?_, h.ended.mono hchange.prefix_journal, hover⟩
  intro e he
  obtain ⟨k, hlt, hk⟩ := h.earlier e he
  exact ⟨k, hlt, mem_entriesBy_mono hchange.prefix_journal hk⟩

/-- What was sent accounts for a job if it holds all that is stored. -/
theorem Standing.accounts (h : c.Standing id job status) (hc : c.database.LogOrdered)
    (hsorted : sent.Pairwise (·.id < ·.id)) (hall : ∀ e ∈ c.database.entriesOf id, e ∈ sent)
    (hsigned : ∀ e ∈ sent, ∃ k, e ∈ c.entriesBy k id) :
    ∃ older, c.Accounts id status job older sent := by
  have holder : ∀ e, e ∈ sent.filter (fun e => e ∉ c.entriesBy job id) ↔
      e ∈ sent ∧ e ∉ c.entriesBy job id := by
    intro e
    rw [List.mem_filter, decide_eq_true_eq]
  have hearlier : ∀ e ∈ sent.filter (fun e => e ∉ c.entriesBy job id), ∃ k < job,
      e ∈ c.entriesBy k id ∧ ∀ e' ∈ c.entriesBy job id, e.id < e'.id := by
    intro e he
    obtain ⟨hsent, hother⟩ := (holder e).mp he
    obtain ⟨k, hk⟩ := hsigned e hsent
    obtain ⟨hlt, hbefore⟩ := h.earlier hk hother
    exact ⟨k, hlt, hk, hbefore⟩
  refine ⟨sent.filter fun e => e ∉ c.entriesBy job id, ?_, ?_, h.ended, h.isOver⟩
  · refine eq_of_sorted hsorted ?_ ?_
    · refine List.pairwise_append.mpr ⟨hsorted.filter _, h.sorted_entriesBy hc, ?_⟩
      intro e he
      obtain ⟨-, -, -, hbefore⟩ := hearlier e he
      exact hbefore
    · intro e
      rw [List.mem_append, holder]
      constructor
      · intro he
        by_cases hown : e ∈ c.entriesBy job id
        · exact Or.inr hown
        · exact Or.inl ⟨he, hown⟩
      · rintro (⟨he, -⟩ | he)
        · exact he
        · exact hall e (h.mem_entriesOf he)
  · intro e he
    obtain ⟨k, hlt, hk, -⟩ := hearlier e he
    exact ⟨k, hlt, hk⟩

end Api.Chronicle

/-! ## One session -/

namespace Follower

variable {c c' : Chronicle} {hub hub' : Hub} {f f' : Follower}

/-- A session is faithful to the store, and what it has read was stored in some job. -/
structure Sourced (c : Chronicle) (f : Follower) : Prop where
  faithful : f.Faithful c.database
  orderly : f.Orderly
  remembers : f.Remembers fun _ => True
  signed : ∀ e ∈ f.received, ∃ job, e ∈ c.entriesBy job f.session.machine

/-- A session with the jobs whose status it has read or told. -/
structure Attributed (c : Chronicle) (f : Follower) : Prop extends Sourced c f where
  reading : ∀ {wake current}, f.session.stage = .reading wake current →
    current.status.isTerminal = true → ∃ job, c.Standing f.session.machine job current.status
  forwarding : ∀ {wake current left}, f.session.stage = .forwarding wake current left →
    current.status.isTerminal = true →
    ∃ job older, c.Accounts f.session.machine current.status job older f.received
  told : ∀ {status removed}, .message (.status status removed) ∈ f.session.sent →
    ∃ job older, c.Accounts f.session.machine status job older f.forwarded

theorem attributed_start (hc : c.Regular) (id : MachineId) (snapshot : Snapshot) (now : Nat) :
    (start id snapshot now).Attributed c where
  faithful := ⟨spoken_start id snapshot now, sound_start hc.ordered id snapshot now⟩
  orderly := .silent rfl rfl
  remembers := .start _ id snapshot now
  signed := nofun
  reading := nofun
  forwarding := nofun
  told hmem := absurd hmem List.not_mem_nil

/-- Whatever the service does, provided that it spares the log between the two last reads. -/
theorem Attributed.change (h : f.Attributed c) (hc : c.Regular) (hc' : c'.Regular)
    (hchange : Chronicle.Change c c')
    (hspares : f.session.awaitsLast = true → c.Spares c' f.session.machine) :
    f.Attributed c' where
  faithful := ⟨h.faithful.spoken, h.faithful.sound.logChange hchange.logChange⟩
  orderly := h.orderly
  remembers := h.remembers
  signed e he := by
    obtain ⟨job, hjob⟩ := h.signed e he
    exact ⟨job, Chronicle.mem_entriesBy_mono hchange.prefix_journal hjob⟩
  reading {wake current} hstage hterminal := by
    obtain ⟨job, hstanding⟩ := h.reading hstage hterminal
    refine ⟨job, hstanding.change hc hc'.exclusive hchange (hspares ?_)⟩
    unfold Session.awaitsLast
    rw [hstage]
    exact hterminal
  forwarding hstage hterminal := by
    obtain ⟨job, older, haccounts⟩ := h.forwarding hstage hterminal
    exact ⟨job, older, haccounts.change hc'.exclusive hchange⟩
  told hmem := by
    obtain ⟨job, older, haccounts⟩ := h.told hmem
    exact ⟨job, older, haccounts.change hc'.exclusive hchange⟩

theorem Sourced.move (h : f.Sourced c) (hc : c.Regular)
    (hmove : f.Move c.database hub f' hub') : f'.Sourced c where
  faithful := ⟨h.faithful.spoken.move hmove, h.faithful.sound.move hc.ordered hmove⟩
  orderly := h.orderly.move h.faithful.spoken hmove
  remembers := (h.remembers.move hmove).imp fun _ _ _ => trivial
  signed e he := by
    rw [hmove.machine_eq]
    rcases hmove.mem_received he with he | he
    · exact h.signed e he
    · obtain ⟨last, kept, hauthored⟩ := hc.authored f.session.machine
      exact ⟨kept, hauthored.mem_entriesBy he⟩

/-- **A session that reads the entries after a terminal status reads the rest of the job.** -/
theorem Attributed.accounts_of_reading (h : f.Attributed c) (hc : c.Regular) {wake : Handle}
    {current : Snapshot} (hstage : f.session.stage = .reading wake current)
    (hterminal : current.status.isTerminal = true) :
    ∃ job older, c.Accounts f.session.machine current.status job older
      (f.forwarded ++ c.database.entriesAfter f.session.machine f.session.cursor) := by
  obtain ⟨job, hstanding⟩ := h.reading hstage hterminal
  have hmove : f.Move c.database .empty _ _ := .read hstage
  have hread := h.toSourced.move hc hmove
  refine ⟨job, hstanding.accounts hc.ordered hread.faithful.sound.sorted_received ?_ hread.signed⟩
  intro e he
  obtain ⟨hmem, hmachine⟩ := mem_entriesOf.mp he
  refine List.mem_append.mpr ?_
  by_cases hcursor : e.id ≤ f.session.cursor
  · exact .inl (h.faithful.sound.complete e hmem hmachine hcursor)
  · exact .inr (mem_entriesAfter.mpr ⟨hmem, hmachine, Int.not_le.mp hcursor⟩)

/-- Whatever a session does by itself. -/
theorem Attributed.move (h : f.Attributed c) (hc : c.Regular)
    (hmove : f.Move c.database hub f' hub') : f'.Attributed c := by
  have hsourced : f'.Sourced c := h.toSourced.move hc hmove
  have hremembers := hsourced.remembers
  cases hmove with
  | idle => exact h
  | look hstage hread =>
    refine ⟨hsourced, ?_, nofun, fun hmem => absurd hmem (hremembers.not_told rfl _ _)⟩
    rintro _ _ hnext hterminal
    cases hnext
    exact Chronicle.Standing.of_terminal hc hterminal (statusOf?_of_snapshot hread)
  | read hstage =>
    refine ⟨hsourced, nofun, ?_, fun hmem => absurd hmem (hremembers.not_told rfl _ _)⟩
    rintro _ _ _ hnext hterminal
    cases hnext
    exact h.accounts_of_reading hc hstage hterminal
  | @forward wake current entry left hstage =>
    refine ⟨hsourced, nofun, ?_, fun hmem => absurd hmem (hremembers.not_told rfl _ _)⟩
    rintro _ _ _ hnext hterminal
    cases hnext
    have hreceived : (f.forwarded ++ [entry]) ++ left = f.received := by
      rw [received_of_forwarding hstage, List.append_assoc]
      rfl
    obtain ⟨job, older, haccounts⟩ := h.forwarding hstage hterminal
    refine ⟨job, older, ?_⟩
    show c.Accounts f.session.machine _ _ _ ((f.forwarded ++ [entry]) ++ left)
    rw [hreceived]
    exact haccounts
  | tell hstage hterminal =>
    refine ⟨hsourced, nofun, nofun, ?_⟩
    intro status removed hmem
    -- the close frame stands before the status that was just told
    rcases List.mem_cons.mp ((List.mem_cons.mp hmem).resolve_left nofun) with hmem | hmem
    · cases hmem
      obtain ⟨job, older, haccounts⟩ := h.forwarding hstage hterminal
      rw [received_of_forwarding hstage, List.append_nil] at haccounts
      exact ⟨job, older, haccounts⟩
    · exact absurd hmem (h.remembers.not_told (isOver_of_stage hstage nofun) status removed)
  | leave hstage =>
    refine ⟨hsourced, nofun, nofun, fun hmem => ?_⟩
    exact absurd ((List.mem_cons.mp hmem).resolve_left nofun)
      (h.remembers.not_told (isOver_of_stage hstage nofun) _ _)
  | quit _ hover _ =>
    refine ⟨hsourced, nofun, nofun, fun hmem => ?_⟩
    exact absurd ((List.mem_cons.mp hmem).resolve_left nofun) (h.remembers.not_told hover _ _)
  | answer hover _ =>
    exact ⟨hsourced, h.reading, h.forwarding,
      fun hmem => absurd hmem (hremembers.not_told hover _ _)⟩
  | _ =>
    exact ⟨hsourced, nofun, nofun, fun hmem => absurd hmem (hremembers.not_told rfl _ _)⟩

/-- A status is told at the end only. -/
theorem Orderly.messages_of_told (h : f.Orderly) {status : MachineStatus} {removed : Bool}
    (htold : .status status removed ∈ f.session.messages) :
    ∃ snapshot, f.session.messages = .init snapshot :: f.lines ++ [.status status removed] := by
  have hlines : .status status removed ∉ f.lines := by
    intro hmem
    obtain ⟨e, -, he⟩ := List.mem_map.mp hmem
    cases he
  cases h with
  | silent hmessages _ =>
    rw [hmessages] at htold
    cases htold
  | greeted snapshot hmessages =>
    rw [hmessages] at htold
    exact absurd ((List.mem_cons.mp htold).resolve_left nofun) hlines
  | concluded snapshot status' removed' hmessages =>
    have hlast : Message.status status removed = .status status' removed' := by
      rw [hmessages, List.cons_append, List.mem_cons, List.mem_append, List.mem_singleton] at htold
      exact (htold.resolve_left nofun).resolve_left hlines
    exact ⟨snapshot, hlast ▸ hmessages⟩

end Follower

/-! ## All that happens -/

namespace Broadcast

variable {setup : Setup} {b : Broadcast} {n : Nat}

/-- The log of a session's machine is not cleared or deleted between the two last reads. -/
def Undisturbed (setup : Setup) (n : Nat) (b : Broadcast) : Happening → Prop
  | .event e => ∀ f ∈ b.followers[n]?, f.session.awaitsLast = true →
      b.chronicle.Spares (b.chronicle.next setup e) f.session.machine
  | .viewer _ _ => True

instance decidableUndisturbed (setup : Setup) (n : Nat) (b : Broadcast) (h : Happening) :
    Decidable (Undisturbed setup n b h) :=
  match h with
  | .event e => inferInstanceAs (Decidable (∀ f ∈ b.followers[n]?, f.session.awaitsLast = true →
      b.chronicle.Spares (b.chronicle.next setup e) f.session.machine))
  | .viewer _ _ => isTrue trivial

/-- What holds of the service and of the n-th session at every moment. -/
structure Attends (b : Broadcast) (n : Nat) : Prop where
  regular : b.chronicle.Regular
  session : ∀ f, b.followers[n]? = some f → f.Attributed b.chronicle

theorem Attends.next (h : b.Attends n) {a : Happening} (hfresh : b.Fresh a)
    (hundisturbed : Undisturbed setup n b a) : (b.next setup a).Attends n := by
  have hregular : (b.next setup a).chronicle.Regular := regular_next h.regular hfresh
  refine ⟨hregular, ?_⟩
  intro f' hf'
  rcases getElem?_next hf' with ⟨id, snapshot, now, rfl⟩ | ⟨f, hub, hf, hmove, -⟩
  · exact Follower.attributed_start hregular id snapshot now
  · refine ((h.session f hf).move h.regular hmove).change h.regular hregular
      (change_next h.regular setup a) ?_
    -- an event leaves the session alone, so that `f'` is the session that the condition is about
    cases a with
    | event e => exact hundisturbed f' hf'
    | viewer a _ => exact fun _ => Chronicle.spares_withHub _ _ _

/-- The service before its first request, with no viewers. -/
def booted (db : Database) (servers issued : List MachineId) : Broadcast :=
  opening (.booted db servers issued)

/--
**Before a status a session has sent all lines of the job that ended in it, and of others only
earlier ones.** The service starts with any tables, the provider never hands out an id twice, and
requests, runs and sessions go on in any order, with any failures. If the n-th session has told a
status and the log was not cleared between the two reads of its last round:

* it has sent a greeting, some older lines, the lines of one job in their order, and the status;
* the job has ended in this status and writes nothing more, so none of its lines is missing;
* each older line was stored in an earlier job, and the session had read it when neither this job
  nor a later one had cleared the log.
-/
theorem lines_of_last_job {db : Database} {servers issued : List MachineId}
    (hordered : db.LogOrdered) (hknown : ∀ e ∈ db.log, db.knows e.machine = true)
    (hissued : ∀ m ∈ db.machines, m.id ∈ issued) {history : List Happening}
    (hfresh : Throughout setup Fresh (booted db servers issued) history)
    (hundisturbed : Throughout setup (Undisturbed setup n) (booted db servers issued) history)
    {f : Follower} (hf : ((booted db servers issued).play setup history).followers[n]? = some f)
    {status : MachineStatus} {removed : Bool}
    (htold : .status status removed ∈ f.session.messages) :
    let c := ((booted db servers issued).play setup history).chronicle
    let id := f.session.machine
    ∃ job older snapshot,
      f.session.messages = .init snapshot ::
        ((older ++ c.entriesBy job id).map fun e => .log e.line) ++ [.status status removed] ∧
      (status.isTerminal = true ∧ c.Ended id job status ∧ ∀ part, ¬c.Acts id part job) ∧
      ∀ e ∈ older, (∃ k < job, e ∈ c.entriesBy k id) ∧
        ∃ before, before <+: history ∧
          ∃ g, ((booted db servers issued).play setup before).followers[n]? = some g ∧
            g.session.machine = id ∧ e ∈ g.received ∧
            ∀ x ∈ ((booted db servers issued).play setup before).chronicle.journal,
              x.machine = id → x.call = .clearLog → x.job < job := by
  intro c id
  have hboot : (booted db servers issued).chronicle.Regular :=
    Chronicle.regular_booted hordered hknown hissued
  have hattends : ((booted db servers issued).play setup history).Attends n :=
    (hfresh.and hundisturbed).play (I := fun b => b.Attends n)
      (fun _ _ ha hb => hb.next ha.1 ha.2) ⟨hboot, nofun⟩
  have hattributed := hattends.session f hf
  have hsent := Session.mem_messages.mp htold
  obtain ⟨snapshot, hmessages⟩ := hattributed.orderly.messages_of_told htold
  obtain ⟨job, older, haccounts⟩ := hattributed.told hsent
  obtain ⟨-, hterminal, -⟩ := hattributed.remembers.told status removed hsent
  refine ⟨job, older, snapshot, ?_, ⟨hterminal, haccounts.ended, haccounts.isOver.silent⟩, ?_⟩
  · rw [hmessages]
    unfold Follower.lines
    rw [haccounts.sent_eq]
  · intro e he
    obtain ⟨k, hlt, hk⟩ := haccounts.earlier e he
    have hreceived : e ∈ f.received := by
      refine Follower.mem_received_of_mem ?_
      rw [haccounts.sent_eq]
      exact List.mem_append_left _ he
    -- when `e` was read it was stored, so that no job behind its own had cleared the log
    obtain ⟨before, ⟨after, rfl⟩, g, hg, hmachine, hread, hstored⟩ :=
      stored_of_received history hf hreceived
    refine ⟨⟨k, hlt, hk⟩, before, List.prefix_append _ _, g, hg, hmachine, hread, ?_⟩
    intro x hx hid hclear
    obtain ⟨hbefore, hafter⟩ := throughout_append.mp hfresh
    have hthen := (regular_play hboot hbefore).1
    have hgrows := (regular_play hthen hafter).2
    rw [← play_append] at hgrows
    exact Nat.lt_of_le_of_lt
      (hthen.job_le_of_stored hattends.regular hgrows hstored hk hx hid hclear) hlt

/-! ## A session across a reprovision -/

/-- A reprovision of the machine 1 is asked for, and the n-th request sets it going. -/
def reprovisioned (n : Nat) : List Happening :=
  .event (Service.postTo "/api/v1/machines/1/reprovision") ::
    List.replicate 4 (.event (.step n Service.calmOutside))

/-- The n-th run makes some steps. -/
def runOn (n steps : Nat) : List Happening := List.replicate steps (.event (.run n none))

/-- The first session makes some steps. -/
def watchOn (steps : Nat) : List Happening := List.replicate steps (.viewer (.step 0 false) trivial)

/-- A session of the machine 1 begins. -/
def joined : Happening :=
  .viewer (.join 1 ⟨1, "web", "192.0.2.1", .provisioning, false⟩ 0) trivial

/-- The machine 1, whose run has failed. -/
def failedBefore : Broadcast := booted Service.interruptedTables.withoutInterrupted [1] [1]

/--
A session has sent a line of a run and waits. The run fails and the machine is reprovisioned before
the session is woken, which then goes round its loop once.
-/
def stayed : List Happening :=
  reprovisioned 0 ++ runOn 0 2 ++ joined :: watchOn 6 ++ runOn 0 8 ++ reprovisioned 1 ++
    runOn 1 10 ++ .viewer (.resume 0 .signalled false) trivial :: watchOn 8

theorem lines_of_last_job_stayed :
    Service.interruptedTables.withoutInterrupted.LogOrdered ∧
    (∀ e ∈ Service.interruptedTables.withoutInterrupted.log,
      Service.interruptedTables.withoutInterrupted.knows e.machine = true) ∧
    (∀ m ∈ Service.interruptedTables.withoutInterrupted.machines, m.id ∈ [(1 : MachineId)]) ∧
    Throughout Service.plainSetup Fresh failedBefore stayed ∧
    Throughout Service.plainSetup (Undisturbed Service.plainSetup 0) failedBefore stayed ∧
    ∃ f, (failedBefore.play Service.plainSetup stayed).followers[0]? = some f ∧
      .status .failed false ∈ f.session.messages ∧
      ∃ job older snapshot,
        f.session.messages = .init snapshot ::
          ((older ++ (failedBefore.play Service.plainSetup stayed).chronicle.entriesBy job
            f.session.machine).map fun e => .log e.line) ++ [.status .failed false] ∧
        (failedBefore.play Service.plainSetup stayed).chronicle.Ended f.session.machine job
          .failed := by
  have hknown : ∀ e ∈ Service.interruptedTables.withoutInterrupted.log,
      Service.interruptedTables.withoutInterrupted.knows e.machine = true := by
    decide +kernel
  have hissued : ∀ m ∈ Service.interruptedTables.withoutInterrupted.machines,
      m.id ∈ [(1 : MachineId)] := by
    decide +kernel
  have hfresh : Throughout Service.plainSetup Fresh failedBefore stayed := by
    decide +kernel
  have hundisturbed :
      Throughout Service.plainSetup (Undisturbed Service.plainSetup 0) failedBefore stayed := by
    decide +kernel
  obtain ⟨f, hf, htold⟩ : ∃ f,
      (failedBefore.play Service.plainSetup stayed).followers[0]? = some f ∧
        .status .failed false ∈ f.session.messages :=
    ⟨_, rfl, by decide +kernel⟩
  obtain ⟨job, older, snapshot, hmessages, ⟨-, hended, -⟩, -⟩ :=
    lines_of_last_job Chronicle.logOrdered_withoutInterrupted hknown hissued hfresh hundisturbed hf
      htold
  refine ⟨Chronicle.logOrdered_withoutInterrupted, hknown, hissued, hfresh, hundisturbed, f, hf,
    htold, ?_⟩
  exact ⟨job, older, snapshot, hmessages, hended⟩

/--
A session has read that a run has failed. Before it reads the entries the machine is reprovisioned,
and the new run logs two lines.
-/
def overtaken : List Happening :=
  joined :: watchOn 3 ++ reprovisioned 0 ++ runOn 0 4 ++ watchOn 4

/--
The lines before a status need not be those of the job that ended in it: a session that stays
connected has sent lines of an earlier one, and a session that is overtaken sends those of a later.
-/
theorem lines_of_other_jobs :
    (∃ f, (failedBefore.play Service.plainSetup stayed).followers[0]? = some f ∧
      .status .failed false ∈ f.session.messages ∧
      ∀ job, (failedBefore.play Service.plainSetup stayed).chronicle.Ended 1 job .failed →
        f.forwarded ≠ (failedBefore.play Service.plainSetup stayed).chronicle.entriesBy job 1) ∧
    ∃ f, (failedBefore.play Service.plainSetup overtaken).followers[0]? = some f ∧
      .status .failed false ∈ f.session.messages ∧
      (∀ job, (failedBefore.play Service.plainSetup overtaken).chronicle.Ended 1 job .failed →
        job = 0) ∧
      ∀ e ∈ f.forwarded,
        e ∈ (failedBefore.play Service.plainSetup overtaken).chronicle.entriesBy 1 1 := by
  refine ⟨⟨_, rfl, ?_, ?_⟩, _, rfl, ?_, ?_, ?_⟩
  · decide +kernel
  · rintro job ⟨x, hx, rfl, hid, hcall⟩
    revert x
    decide +kernel
  · decide +kernel
  · rintro job ⟨x, hx, rfl, hid, hcall⟩
    revert x
    decide +kernel
  · decide +kernel

end Broadcast

end Provisioner
