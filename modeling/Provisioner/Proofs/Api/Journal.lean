import Provisioner.Proofs.Api.Exclusion
import Provisioner.Proofs.Api.Stroke
import Provisioner.Proofs.Store.Writes

/-!
# On whose behalf each write is made

The tables do not tell who wrote a line. Here the service is kept with a *journal* of all writes,
each signed with the *job* that it was made for. A job is all that is done for a machine from the
step on in which a request records it or sets it back: the lines of the request, the clearing of the
log, the run. Jobs are numbered from 1 on, in the order in which they begin. What stands in the
tables at the start counts as written for job 0.

* `Chronicle.next` keeps the journal, and leaves the service alone (`service_next`).
* `Chronicle.Acts` says who may still write for a machine. At most one may (`Acts.unique`).
-/

namespace Provisioner

/-! ## Members with a number -/

/-- A member of a list has a number in a list beside it. -/
def Assigned {α : Type} (l : List α) (jobs : List Nat) (a : α) (job : Nat) : Prop :=
  ∃ n : Nat, l[n]? = some a ∧ jobs[n]? = some job

namespace Assigned

variable {α : Type} {l : List α} {jobs jobs' : List Nat} {a b : α} {n job k : Nat}

/-- Only one member was replaced, and its number maybe too. -/
theorem of_set (hjobs : ∀ m, m ≠ n → jobs'[m]? = jobs[m]?)
    (h : Assigned (l.set n b) jobs' a job) :
    Assigned l jobs a job ∨ (a = b ∧ jobs'[n]? = some job) := by
  obtain ⟨m, ha, hjob⟩ := h
  by_cases hm : m = n
  · subst hm
    rw [List.getElem?_set_self'] at ha
    obtain ⟨_, -, rfl⟩ := Option.map_eq_some_iff.mp ha
    exact Or.inr ⟨rfl, hjob⟩
  · rw [List.getElem?_set_ne (Ne.symm hm)] at ha
    rw [hjobs m hm] at hjob
    exact Or.inl ⟨m, ha, hjob⟩

theorem of_eraseIdx (h : Assigned (l.eraseIdx n) (jobs.eraseIdx n) a job) :
    Assigned l jobs a job := by
  obtain ⟨m, ha, hjob⟩ := h
  rw [List.getElem?_eraseIdx] at ha hjob
  by_cases hm : m < n
  · rw [if_pos hm] at ha hjob
    exact ⟨m, ha, hjob⟩
  · rw [if_neg hm] at ha hjob
    exact ⟨m + 1, ha, hjob⟩

theorem of_concat (hlength : jobs.length = l.length) (h : Assigned (l ++ [b]) (jobs ++ [k]) a job) :
    Assigned l jobs a job ∨ (a = b ∧ job = k) := by
  obtain ⟨m, ha, hjob⟩ := h
  by_cases hm : m < l.length
  · rw [List.getElem?_append_left hm] at ha
    rw [List.getElem?_append_left (hlength ▸ hm)] at hjob
    exact Or.inl ⟨m, ha, hjob⟩
  · rw [List.getElem?_append_right (by omega), List.getElem?_singleton] at ha hjob
    obtain ⟨-, rfl⟩ := Option.ite_some_none_eq_some.mp ha
    obtain ⟨-, rfl⟩ := Option.ite_some_none_eq_some.mp hjob
    exact Or.inr ⟨rfl, rfl⟩

/-- If at most one member satisfies `p`, two that do are one, with one number. -/
theorem unique {p : α → Bool} (hcount : l.countP p ≤ 1) (h : Assigned l jobs a job)
    (h' : Assigned l jobs b k) (ha : p a = true) (hb : p b = true) : a = b ∧ job = k := by
  obtain ⟨n, hn, hjob⟩ := h
  obtain ⟨m, hm, hk⟩ := h'
  by_cases hnm : n = m
  · subst hnm
    rw [hn] at hm
    rw [hjob] at hk
    exact ⟨Option.some.inj hm, Option.some.inj hk⟩
  · -- two places where `p` holds count twice
    exfalso
    have herase := countP_eraseIdx_add hn p
    have hrest : 0 < (l.eraseIdx n).countP p := by
      refine List.countP_pos_iff.mpr ⟨b, ?_, hb⟩
      exact List.mem_eraseIdx_iff_getElem?.mpr ⟨m, Ne.symm hnm, hm⟩
    rw [ha] at herase
    simp only [Bool.toNat_true] at herase
    omega

end Assigned

namespace Api

open Database

/-- The write that a run makes in its next step. -/
def writeOf? (active : ActiveRun) : Option (MachineId × Write) :=
  match active.script with
  | .write call _ => some (active.run.machine, call)
  | _ => none

/-! ## The journal -/

/-- A write that was made for a job. -/
structure Signed where
  job : Nat
  machine : MachineId
  call : Write
  /-- What it has added to the log. -/
  entries : List LogEntry

/-- The service with the journal of all writes. -/
structure Chronicle where
  service : Service
  /-- The number of the next job. -/
  nextJob : Nat
  /-- The job of each request, or 0 if it has begun none. -/
  taskJobs : List Nat
  /-- The job of each run. -/
  runJobs : List Nat
  /-- The writes that were made, first one first. -/
  journal : List Signed

namespace Chronicle

/-- The tables. -/
abbrev database (c : Chronicle) : Database := c.service.world.database

/-- A write that is made for a job, unless it fails. -/
def sign (db : Database) (job : Nat) (fault : Option DatabaseFailure) :
    Option (MachineId × Write) → List Signed
  | some (id, call) => if fault.isNone then [⟨job, id, call, db.newEntries id call⟩] else []
  | none => []

/-- The chronicle after an event. -/
def next (setup : Setup) (c : Chronicle) : Event → Chronicle
  | .request r name =>
    match Start.ofRequest r name with
    | .task _ =>
      { c with service := c.service.next setup (.request r name), taskJobs := c.taskJobs ++ [0] }
    | .response _ => c
  | .step n o =>
    match c.service.tasks[n]? with
    | some t =>
      let begins := t.begins (t.step setup o c.service.world).1
      let job := c.taskJobs.getD n 0
      { service := c.service.next setup (.step n o)
        nextJob := if begins then c.nextJob + 1 else c.nextJob
        taskJobs := if begins then c.taskJobs.set n c.nextJob else c.taskJobs
        runJobs := if t.starts then c.runJobs ++ [job] else c.runJobs
        journal := c.journal ++ sign c.database job o.fault t.write? }
    | none => c
  | .drop n =>
    { c with service := c.service.next setup (.drop n), taskJobs := c.taskJobs.eraseIdx n }
  | .run n fault =>
    match c.service.world.runs[n]? with
    | some active =>
      { c with
        service := c.service.next setup (.run n fault)
        journal := c.journal ++
          sign c.database (c.runJobs.getD n 0) fault (writeOf? active) }
    | none => c

/-- The chronicle after some events. -/
def play (setup : Setup) (c : Chronicle) (events : List Event) : Chronicle :=
  events.foldl (next setup) c

theorem play_cons (setup : Setup) (c : Chronicle) (e : Event) (events : List Event) :
    c.play setup (e :: events) = (c.next setup e).play setup events := rfl

/-- **The journal changes nothing.** -/
theorem service_next (setup : Setup) (c : Chronicle) (e : Event) :
    (c.next setup e).service = c.service.next setup e := by
  cases e with
  | request r name =>
    simp only [next, Service.next]
    cases Start.ofRequest r name <;> rfl
  | step n o =>
    simp only [next, Service.next]
    cases c.service.tasks[n]? <;> rfl
  | drop n => rfl
  | run n fault =>
    simp only [next, Service.next, World.runStep]
    cases c.service.world.runs[n]? <;> rfl

theorem service_play (setup : Setup) (c : Chronicle) (events : List Event) :
    (c.play setup events).service = c.service.play setup events := by
  induction events generalizing c with
  | nil => rfl
  | cons e events ih => rw [play_cons, ih, service_next, Service.play_cons]

/-! ## Those who act -/

/-- Somebody has a part for a machine in some job. -/
inductive Acts (c : Chronicle) (id : MachineId) (part : Part) (job : Nat) : Prop where
  | request (t : Task) (h : Assigned c.service.tasks c.taskJobs t job)
      (hpart : t.part? = some (id, part))
  | run (active : ActiveRun) (h : Assigned c.service.world.runs c.runJobs active job)
      (hid : active.run.machine = id) (hopen : active.script.awaitsStatus = true)
      (hpart : part = .writing)

/-- Every request and every run has a job. -/
structure Paired (c : Chronicle) : Prop where
  tasks : c.taskJobs.length = c.service.tasks.length
  runs : c.runJobs.length = c.service.world.runs.length

theorem triggers_pos {c : Chronicle} {t : Task} {id : MachineId} {part : Part} {job : Nat}
    (h : Assigned c.service.tasks c.taskJobs t job) (hpart : t.part? = some (id, part)) :
    0 < c.service.triggers id := by
  obtain ⟨n, hn, -⟩ := h
  exact Service.triggers_pos hn (Task.role_of_part hpart)

theorem openRuns_pos {c : Chronicle} {active : ActiveRun} {job : Nat}
    (h : Assigned c.service.world.runs c.runJobs active job)
    (hopen : active.script.awaitsStatus = true) : 0 < c.service.openRuns active.run.machine := by
  obtain ⟨n, hn, -⟩ := h
  exact Service.openRuns_pos hn hopen

/-- **Two who act for a machine are one.** -/
theorem Acts.unique {c : Chronicle} (hc : c.service.Exclusive) {id : MachineId} {part part' : Part}
    {job job' : Nat} (h : c.Acts id part job) (h' : c.Acts id part' job') :
    part = part' ∧ job = job' := by
  have honce : c.service.recordings id + c.service.triggers id + c.service.openRuns id ≤ 1 :=
    (hc.sound id).once
  cases h with
  | request t h hpart =>
    have hpos := triggers_pos h hpart
    cases h' with
    | request t' h' hpart' =>
      have hcount : c.service.triggers id ≤ 1 := by omega
      obtain ⟨rfl, rfl⟩ := h.unique hcount h' (decide_eq_true (Task.role_of_part hpart))
        (decide_eq_true (Task.role_of_part hpart'))
      rw [hpart] at hpart'
      cases hpart'
      exact ⟨rfl, rfl⟩
    | run active h' hid hopen _ =>
      have hpos' := openRuns_pos h' hopen
      rw [hid] at hpos'
      omega
  | run active h hid hopen hpart =>
    have hpos := openRuns_pos h hopen
    rw [hid] at hpos
    cases h' with
    | request t' h' hpart' =>
      have hpos' := triggers_pos h' hpart'
      omega
    | run active' h' hid' hopen' hpart' =>
      have hcount : c.service.openRuns id ≤ 1 := by omega
      obtain ⟨-, rfl⟩ := h.unique hcount h' (by simp [hid, hopen]) (by simp [hid', hopen'])
      exact ⟨hpart.trans hpart'.symm, rfl⟩

/-- Nobody acts for a machine whose row shows a terminal status. -/
theorem not_acts_of_terminal {c : Chronicle} (hc : c.service.Exclusive) {id : MachineId}
    {status : MachineStatus} (hterminal : status.isTerminal = true)
    (hstatus : c.database.statusOf? id = some status.word) (part : Part) (job : Nat) :
    ¬c.Acts id part job := by
  have hfree : c.service.triggers id + c.service.openRuns id = 0 :=
    ((hc.sound id).free_of_terminal hterminal hstatus).2
  intro h
  cases h with
  | request t h hpart =>
    have := triggers_pos h hpart
    omega
  | run active h hid hopen _ =>
    have := openRuns_pos h hopen
    rw [hid] at this
    omega

end Chronicle

end Api

end Provisioner
