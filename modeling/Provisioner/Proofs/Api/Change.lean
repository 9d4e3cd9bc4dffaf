import Provisioner.Proofs.Api.Journal

/-!
# What an event does to the journal

`Chronicle.Change` is all that an event does to the tables, the journal and those who act, and
`Chronicle.change_next` says that it does nothing else.
-/

namespace Provisioner.Api

open Database

namespace Chronicle

/-- All that an event does to the tables, the journal and those who act. -/
inductive Change (c c' : Chronicle) : Prop where
  | rests (hdatabase : c'.database = c.database) (hjournal : c'.journal = c.journal)
      (hjobs : c'.nextJob = c.nextJob)
      (hacts : ∀ id part job, c'.Acts id part job → c.Acts id part job)
  | wrote (id : MachineId) (part : Part) (job : Nat) (call : Write) (hactor : c.Acts id part job)
      (hfits : part.Fits call) (hdatabase : c'.database = (c.database.perform id call).2)
      (hjournal : c'.journal = c.journal ++ [⟨job, id, call, c.database.newEntries id call⟩])
      (hjobs : c'.nextJob = c.nextJob)
      (hacts : ∀ other part' job', c'.Acts other part' job' →
        c.Acts other part' job' ∨ (call = .clearLog ∧ other = id))
      (hcleared : call = .clearLog → c'.Acts id .writing job)
  | recorded (new : NewMachine) (row : Machine)
      (hdatabase : c.database.insert new = .ok (row, c'.database))
      (hjournal : c'.journal = c.journal)
      (hjobs : c'.nextJob = c.nextJob + 1)
      (hacts : ∀ other part' job', c'.Acts other part' job' →
        c.Acts other part' job' ∨ (other = new.id ∧ part' = .writing ∧ job' = c.nextJob))
      (hactor : c'.Acts new.id .writing c.nextJob)
  | restarted (id : MachineId) (row : Machine)
      (hrow : (c.database.beginReprovision id).1 = some row)
      (hdatabase : c'.database = (c.database.beginReprovision id).2)
      (hjournal : c'.journal = c.journal) (hjobs : c'.nextJob = c.nextJob + 1)
      (hacts : ∀ other part' job', c'.Acts other part' job' →
        c.Acts other part' job' ∨ (other = id ∧ part' = .holding ∧ job' = c.nextJob))
      (hactor : c'.Acts id .holding c.nextJob)
  | erased (id : MachineId) (hdatabase : c'.database = (c.database.erase id).2)
      (hjournal : c'.journal = c.journal) (hjobs : c'.nextJob = c.nextJob)
      (hacts : ∀ id part job, c'.Acts id part job → c.Acts id part job)

variable {setup : Setup} {c c' : Chronicle} {n : Nat} {t t' : Task} {o : Outside}

theorem Paired.job (hc : c.Paired) (hn : c.service.tasks[n]? = some t) :
    c.taskJobs[n]? = some (c.taskJobs.getD n 0) := by
  have hlt : n < c.taskJobs.length := by
    rw [hc.tasks]
    exact (List.getElem?_eq_some_iff.mp hn).1
  rw [List.getD_eq_getElem?_getD, List.getElem?_eq_getElem hlt]
  rfl

theorem Paired.runJob (hc : c.Paired) {active : ActiveRun}
    (hn : c.service.world.runs[n]? = some active) :
    c.runJobs[n]? = some (c.runJobs.getD n 0) := by
  have hlt : n < c.runJobs.length := by
    rw [hc.runs]
    exact (List.getElem?_eq_some_iff.mp hn).1
  rw [List.getD_eq_getElem?_getD, List.getElem?_eq_getElem hlt]
  rfl

theorem sign_eq_nil {fault : Option DatabaseFailure} {write? : Option (MachineId × Write)}
    (h : write? = none ∨ fault ≠ none) (db : Database) (job : Nat) :
    sign db job fault write? = [] := by
  cases write? with
  | none => rfl
  | some call =>
    cases fault with
    | none => exact absurd rfl (h.resolve_left nofun)
    | some failure => rfl

/-! ## Steps of requests -/

/-- What the steps of requests have in common: the n-th request goes on from `t` to `t'`. -/
structure Stepped (o : Outside) (n : Nat) (t t' : Task) (c c' : Chronicle) : Prop where
  found : c.service.tasks[n]? = some t
  tasks : c'.service.tasks = c.service.tasks.set n t'
  nextJob : c'.nextJob = if t.begins t' then c.nextJob + 1 else c.nextJob
  taskJobs : c'.taskJobs = if t.begins t' then c.taskJobs.set n c.nextJob else c.taskJobs
  runJobs : c'.runJobs = if t.starts then c.runJobs ++ [c.taskJobs.getD n 0] else c.runJobs
  journal : c'.journal = c.journal ++ sign c.database (c.taskJobs.getD n 0) o.fault t.write?

theorem stepped_next (setup : Setup) (o : Outside) (hn : c.service.tasks[n]? = some t) :
    Stepped o n t (t.step setup o c.service.world).1 c (c.next setup (.step n o)) ∧
      (c.next setup (.step n o)).service.world = (t.step setup o c.service.world).2 := by
  simp only [next, Service.next, hn, and_true]
  exact ⟨hn, rfl, rfl, rfl, rfl, rfl⟩

namespace Stepped

theorem mem (h : Stepped o n t t' c c') : c'.service.tasks[n]? = some t' := by
  rw [h.tasks]
  exact List.getElem?_set_self (List.getElem?_eq_some_iff.mp h.found).1

/-- Who acts is as before, but for the request itself. -/
theorem acts_of_tasks (h : Stepped o n t t' c c') {job : Nat} (hjob : c'.taskJobs[n]? = some job)
    {id : MachineId} {part : Part} {k : Nat} {task : Task}
    (hassigned : Assigned c'.service.tasks c'.taskJobs task k)
    (hpart : task.part? = some (id, part)) :
    c.Acts id part k ∨ (t'.part? = some (id, part) ∧ k = job) := by
  rw [h.tasks] at hassigned
  have hothers : ∀ m, m ≠ n → c'.taskJobs[m]? = c.taskJobs[m]? := by
    intro m hm
    rw [h.taskJobs]
    split
    · exact List.getElem?_set_ne (Ne.symm hm)
    · rfl
  rcases hassigned.of_set hothers with hassigned | ⟨rfl, hk⟩
  · exact Or.inl (.request task hassigned hpart)
  · rw [hjob] at hk
    exact Or.inr ⟨hpart, (Option.some.inj hk).symm⟩

theorem acts (h : Stepped o n t t' c c') {job : Nat} (hjob : c'.taskJobs[n]? = some job)
    (hstarts : t.starts = false) (hruns : c'.service.world.runs = c.service.world.runs)
    {id : MachineId} {part : Part} {k : Nat} (hacts : c'.Acts id part k) :
    c.Acts id part k ∨ (t'.part? = some (id, part) ∧ k = job) := by
  cases hacts with
  | request task hassigned hpart => exact h.acts_of_tasks hjob hassigned hpart
  | run active hassigned hid hopen hpart =>
    rw [hruns, h.runJobs, hstarts] at hassigned
    exact Or.inl (.run active hassigned hid hopen hpart)

/-- A request that goes on without a new job keeps its own. -/
theorem job_of_not_begins (h : Stepped o n t t' c c') (hc : c.Paired)
    (hbegins : t.begins t' = false) : c'.taskJobs[n]? = some (c.taskJobs.getD n 0) := by
  rw [h.taskJobs, hbegins]
  exact hc.job h.found

theorem job_of_begins (h : Stepped o n t t' c c') (hc : c.Paired) (hbegins : t.begins t' = true) :
    c'.taskJobs[n]? = some c.nextJob := by
  rw [h.taskJobs, hbegins]
  exact List.getElem?_set_self (List.getElem?_eq_some_iff.mp (hc.job h.found)).1

theorem nextJob_of_not_begins (h : Stepped o n t t' c c') (hbegins : t.begins t' = false) :
    c'.nextJob = c.nextJob := by
  rw [h.nextJob, hbegins]
  rfl

theorem nextJob_of_begins (h : Stepped o n t t' c c') (hbegins : t.begins t' = true) :
    c'.nextJob = c.nextJob + 1 := by
  rw [h.nextJob, hbegins]
  rfl

theorem journal_of_quiet (h : Stepped o n t t' c c') (hcall : t.write? = none ∨ o.fault ≠ none) :
    c'.journal = c.journal := by
  rw [h.journal, sign_eq_nil hcall, List.append_nil]

theorem not_begins_of_some {id : MachineId} {part : Part} (hpart : t.part? = some (id, part)) :
    t.begins t' = false := by
  unfold Task.begins
  rw [hpart]
  rfl

theorem not_begins_of_none (hpart : t'.part? = none) : t.begins t' = false := by
  unfold Task.begins
  rw [hpart]
  exact Bool.and_false _

theorem begins_of_some {id : MachineId} {part : Part} (hpart : t.part? = none)
    (hpart' : t'.part? = some (id, part)) : t.begins t' = true := by
  unfold Task.begins
  rw [hpart, hpart']
  rfl

theorem actor (h : Stepped o n t t' c c') (hc : c.Paired) {id : MachineId} {part : Part}
    (hpart : t.part? = some (id, part)) : c.Acts id part (c.taskJobs.getD n 0) :=
  .request t ⟨n, h.found, hc.job h.found⟩ hpart

/-- A request that begins a job acts in it, and nobody else does. -/
theorem acts_of_begins (h : Stepped o n t t' c c') (hc : c.Paired) {id : MachineId} {part : Part}
    (hpart : t.part? = none) (hpart' : t'.part? = some (id, part)) (hstarts : t.starts = false)
    (hruns : c'.service.world.runs = c.service.world.runs) :
    c'.Acts id part c.nextJob ∧ ∀ other part' k, c'.Acts other part' k →
      c.Acts other part' k ∨ (other = id ∧ part' = part ∧ k = c.nextJob) := by
  have hjob := h.job_of_begins hc (begins_of_some hpart hpart')
  refine ⟨.request t' ⟨n, h.mem, hjob⟩ hpart', ?_⟩
  intro other part' k hacts
  refine (h.acts hjob hstarts hruns hacts).imp_right ?_
  rintro ⟨hother, rfl⟩
  rw [hpart'] at hother
  cases hother
  exact ⟨rfl, rfl, rfl⟩

/-- A request without a part neither before nor after. -/
theorem acts_of_none (h : Stepped o n t t' c c') (hc : c.Paired) (hpart' : t'.part? = none)
    (hstarts : t.starts = false) (hruns : c'.service.world.runs = c.service.world.runs)
    {id : MachineId} {part : Part} {k : Nat} (hacts : c'.Acts id part k) : c.Acts id part k := by
  have hjob := h.job_of_not_begins hc (not_begins_of_none hpart')
  rcases h.acts hjob hstarts hruns hacts with hacts | ⟨hpart, -⟩
  · exact hacts
  · rw [hpart'] at hpart
    cases hpart

/-- A run that is started goes on with the job of its request. -/
theorem acts_of_started (h : Stepped o n t t' c c') (hc : c.Paired) {run : Run} {script : Script}
    (hpart : t.part? = some (run.machine, .writing)) (hpart' : t'.part? = none)
    (hstarts : t.starts = true) (hworld : c'.service.world = c.service.world.start run script)
    {id : MachineId} {part : Part} {k : Nat} (hacts : c'.Acts id part k) : c.Acts id part k := by
  cases hacts with
  | request task hassigned htask =>
    have hjob := h.job_of_not_begins hc (not_begins_of_none hpart')
    rcases h.acts_of_tasks hjob hassigned htask with hacts | ⟨hpart, -⟩
    · exact hacts
    · rw [hpart'] at hpart
      cases hpart
  | run active hassigned hid hopen hwriting =>
    rw [hworld, h.runJobs, hstarts] at hassigned
    rcases hassigned.of_concat hc.runs with hassigned | ⟨rfl, rfl⟩
    · exact .run active hassigned hid hopen hwriting
    · rw [← hid, hwriting]
      exact h.actor hc hpart

/-- **What a step of a request does.** -/
theorem change (h : Stepped o n t t' c c') (hc : c.Paired)
    (hstroke : Task.Stroke o c.service.world t t' c'.service.world) : Change c c' := by
  cases hstroke with
  | rests hpart hcall hstarts hdatabase hruns =>
    have hbegins : t.begins t' = false := by
      rcases hpart with hpart | hpart
      · unfold Task.begins
        rw [hpart]
        cases t.part? <;> rfl
      · exact not_begins_of_none hpart
    refine .rests hdatabase (h.journal_of_quiet hcall) (h.nextJob_of_not_begins hbegins) ?_
    intro id part k hacts
    rcases h.acts (h.job_of_not_begins hc hbegins) hstarts hruns hacts with hacts | ⟨hpart', rfl⟩
    · exact hacts
    · rcases hpart with hpart | hpart
      · rw [hpart] at hpart'
        exact h.actor hc hpart'
      · rw [hpart] at hpart'
        cases hpart'
  | wrote id part call hpart hfits hcall hfault hpart' hcleared hstarts hdatabase hruns =>
    have hbegins : t.begins t' = false := not_begins_of_some hpart
    have hjob := h.job_of_not_begins hc hbegins
    refine .wrote id part _ call (h.actor hc hpart) hfits hdatabase ?_
      (h.nextJob_of_not_begins hbegins) ?_ ?_
    · rw [h.journal, hcall, hfault]
      rfl
    · intro other part' k hacts
      rcases h.acts hjob hstarts hruns hacts with hacts | ⟨hother, rfl⟩
      · exact Or.inl hacts
      · -- the request goes on with another part only if it has cleared the log
        by_cases hclear : call = .clearLog
        · rw [hcleared hclear] at hother
          cases hother
          exact Or.inr ⟨hclear, rfl⟩
        · rcases hpart' hclear with hpart' | hpart'
          · rw [hpart'] at hother
            exact Or.inl (h.actor hc hother)
          · rw [hpart'] at hother
            cases hother
    · intro hclear
      exact .request t' ⟨n, h.mem, hjob⟩ (hcleared hclear)
  | recorded new row hpart hpart' hcall hstarts hdatabase hruns =>
    obtain ⟨hactor, hacts⟩ := h.acts_of_begins hc hpart hpart' hstarts hruns
    exact .recorded new row hdatabase (h.journal_of_quiet (Or.inl hcall))
      (h.nextJob_of_begins (begins_of_some hpart hpart')) hacts hactor
  | restarted id row hpart hpart' hcall hstarts hrow hdatabase hruns =>
    obtain ⟨hactor, hacts⟩ := h.acts_of_begins hc hpart hpart' hstarts hruns
    exact .restarted id row hrow hdatabase (h.journal_of_quiet (Or.inl hcall))
      (h.nextJob_of_begins (begins_of_some hpart hpart')) hacts hactor
  | started run script hpart hpart' hcall hstarts hworld =>
    have hdatabase : c'.database = c.database := by
      rw [database, hworld]
      rfl
    refine .rests hdatabase (h.journal_of_quiet (Or.inl hcall))
      (h.nextJob_of_not_begins (not_begins_of_some hpart)) ?_
    intro id part k hacts
    exact h.acts_of_started hc hpart hpart' hstarts hworld hacts
  | erased id hpart hpart' hcall hstarts hdatabase hruns =>
    refine .erased id hdatabase (h.journal_of_quiet (Or.inl hcall))
      (h.nextJob_of_not_begins (not_begins_of_none hpart')) ?_
    intro id part k hacts
    exact h.acts_of_none hc hpart' hstarts hruns hacts

theorem paired (h : Stepped o n t t' c c') (hc : c.Paired)
    (hstroke : Task.Stroke o c.service.world t t' c'.service.world) : c'.Paired := by
  refine ⟨?_, ?_⟩
  · rw [h.taskJobs, h.tasks, List.length_set, ← hc.tasks]
    split
    · exact List.length_set ..
    · rfl
  · rw [h.runJobs]
    cases hstroke with
    | rests _ _ hstarts _ hruns | wrote _ _ _ _ _ _ _ _ _ hstarts _ hruns
    | recorded _ _ _ _ _ hstarts _ hruns | restarted _ _ _ _ _ hstarts _ _ hruns
    | erased _ _ _ _ hstarts _ hruns =>
      rw [hstarts, hruns]
      exact hc.runs
    | started run script _ _ _ hstarts hworld =>
      rw [hstarts, hworld, if_pos rfl]
      simp only [World.start, List.length_append, List.length_singleton, hc.runs]

end Stepped

/-! ## Events -/

/-- A run has gone on: who acts is as before, unless the run has ended. -/
theorem Acts.of_run {run : Run} {script script' : Script} {id : MachineId} {part : Part} {job : Nat}
    (h : c'.Acts id part job) (hn : c.service.world.runs[n]? = some ⟨run, script⟩)
    (hscript : script'.awaitsStatus = true → script.awaitsStatus = true)
    (htasks : c'.service.tasks = c.service.tasks) (htaskJobs : c'.taskJobs = c.taskJobs)
    (hruns : c'.service.world.runs = c.service.world.runs.set n ⟨run, script'⟩)
    (hrunJobs : c'.runJobs = c.runJobs) : c.Acts id part job := by
  cases h with
  | request t h hpart =>
    rw [htasks, htaskJobs] at h
    exact .request t h hpart
  | run other h hid hopen hpart =>
    rw [hruns, hrunJobs] at h
    rcases h.of_set fun _ _ => rfl with h | ⟨rfl, hjob⟩
    · exact .run other h hid hopen hpart
    · exact .run _ ⟨n, hn, hjob⟩ hid (hscript hopen) hpart

/-- **What a step of a run does.** -/
theorem change_run (hc : c.Paired) (hs : c.service.Orderly) (setup : Setup) (n : Nat)
    (fault : Option DatabaseFailure) : Change c (c.next setup (.run n fault)) := by
  cases hn : c.service.world.runs[n]? with
  | none =>
    simp only [next, hn]
    exact .rests rfl rfl rfl fun _ _ _ h => h
  | some active =>
    obtain ⟨run, script⟩ := active
    simp only [next, Service.next, World.runStep, hn]
    cases script with
    | done =>
      refine .rests rfl (List.append_nil _) rfl fun id part job h => ?_
      exact h.of_run hn (fun hopen => hopen) rfl rfl rfl rfl
    | notify next =>
      have hscript : next.awaitsStatus = true → (Script.notify next).awaitsStatus = true :=
        fun hopen => hopen
      refine .rests rfl (List.append_nil _) rfl fun id part job h => ?_
      exact h.of_run hn hscript rfl rfl rfl rfl
    | write call next =>
      have hrunning := hs.running hn rfl
      cases fault with
      | some failure =>
        refine .rests rfl (List.append_nil _) rfl fun id part job h => ?_
        exact h.of_run hn (fun _ => hrunning.awaitsStatus_eq) rfl rfl rfl rfl
      | none =>
        have hactor : c.Acts run.machine .writing (c.runJobs.getD n 0) :=
          .run _ ⟨n, hn, hc.runJob hn⟩ rfl hrunning.awaitsStatus_eq rfl
        have hfits : Part.writing.Fits call := by
          rcases hrunning.write_cases with ⟨hcall, -⟩ | ⟨status, hcall, hterminal, -⟩
          · exact Or.inl hcall
          · exact Or.inr ⟨status, hcall, hterminal⟩
        refine .wrote run.machine .writing _ call hactor hfits rfl rfl rfl ?_ ?_
        · intro id part job h
          exact Or.inl (h.of_run hn (fun _ => hrunning.awaitsStatus_eq) rfl rfl rfl rfl)
        · -- a run never clears the log
          rintro rfl
          rcases hfits with hfits | ⟨_, hfits, -⟩
          · cases hfits
          · cases hfits

/-- A request that arrives acts for nobody yet. -/
theorem change_request (hc : c.Paired) (setup : Setup) (r : Request) (name : String) :
    Change c (c.next setup (.request r name)) := by
  have hidle := Start.idle_ofRequest r name
  simp only [next, Service.next]
  cases hstart : Start.ofRequest r name with
  | response _ => exact .rests rfl rfl rfl fun _ _ _ h => h
  | task t =>
    rw [hstart] at hidle
    refine .rests rfl rfl rfl ?_
    intro id part job h
    cases h with
    | request t' h hpart =>
      rcases h.of_concat hc.tasks with h | ⟨rfl, -⟩
      · exact .request t' h hpart
      · have hrole := Task.role_of_part hpart
        rw [hidle.1] at hrole
        cases hrole
    | run active h hid hopen hpart => exact .run active h hid hopen hpart

/-- A request that is dropped acts no more. -/
theorem change_drop (setup : Setup) (c : Chronicle) (n : Nat) :
    Change c (c.next setup (.drop n)) := by
  refine .rests rfl rfl rfl ?_
  intro id part job h
  cases h with
  | request t h hpart => exact .request t h.of_eraseIdx hpart
  | run active h hid hopen hpart => exact .run active h hid hopen hpart

/-- **What an event does.** -/
theorem change_next (hc : c.Paired) (hs : c.service.Orderly) (setup : Setup) (e : Event) :
    Change c (c.next setup e) := by
  cases e with
  | request r name => exact change_request hc setup r name
  | step n o =>
    cases hn : c.service.tasks[n]? with
    | none =>
      simp only [next, hn]
      exact .rests rfl rfl rfl fun _ _ _ h => h
    | some t =>
      obtain ⟨hstepped, hworld⟩ := stepped_next setup o hn
      refine hstepped.change hc ?_
      rw [hworld]
      exact Task.stroke_step (hs.tasks t (List.mem_of_getElem? hn)) setup o c.service.world
  | drop n => exact change_drop setup c n
  | run n fault => exact change_run hc hs setup n fault

/-- Every request and every run goes on to have a job. -/
theorem Paired.next (hc : c.Paired) (hs : c.service.Orderly) (setup : Setup) (e : Event) :
    (c.next setup e).Paired := by
  cases e with
  | request r name =>
    simp only [Chronicle.next, Service.next]
    cases Start.ofRequest r name with
    | response _ => exact hc
    | task t =>
      refine ⟨?_, hc.runs⟩
      simp only [List.length_append, hc.tasks, List.length_singleton]
  | step n o =>
    cases hn : c.service.tasks[n]? with
    | none =>
      simp only [Chronicle.next, hn]
      exact hc
    | some t =>
      obtain ⟨hstepped, hworld⟩ := stepped_next setup o hn
      exact hstepped.paired hc (hworld ▸ Task.stroke_step
        (hs.tasks t (List.mem_of_getElem? hn)) setup o c.service.world)
  | drop n =>
    refine ⟨?_, hc.runs⟩
    simp only [Chronicle.next, Service.next, List.length_eraseIdx, hc.tasks]
  | run n fault =>
    cases hn : c.service.world.runs[n]? with
    | none =>
      simp only [Chronicle.next, hn]
      exact hc
    | some active =>
      obtain ⟨run, script⟩ := active
      simp only [Chronicle.next, Service.next, World.runStep, hn]
      refine ⟨hc.tasks, ?_⟩
      rw [hc.runs]
      cases script with
      | write call next =>
        cases fault <;> exact (List.length_set ..).symm
      | _ => exact (List.length_set ..).symm

end Chronicle

end Provisioner.Api
