import Provisioner.Proofs.Api.Change

/-!
# Each job has one run at most

A job is begun by one request, and only that request can start a run for it. So what is signed with
one job was written by one request and one run of its (`Chronicle.Distinct`).
-/

namespace Provisioner.Api.Chronicle

/-- The n-th request has begun a job, and has still to start its run. -/
def Pending (c : Chronicle) (n job : Nat) : Prop :=
  ∃ t, c.service.tasks[n]? = some t ∧ c.taskJobs[n]? = some job ∧ t.part? ≠ none

/-- No job has two requests, two runs, or a run while its request has still to start one. -/
structure Distinct (c : Chronicle) : Prop where
  nextJob_pos : 0 < c.nextJob
  pending : ∀ {n m job}, c.Pending n job → c.Pending m job → n = m
  apart : ∀ {n job}, c.Pending n job → job ∉ c.runJobs
  runs : c.runJobs.Nodup
  pending_lt : ∀ {n job}, c.Pending n job → 0 < job ∧ job < c.nextJob
  runs_lt : ∀ job ∈ c.runJobs, 0 < job ∧ job < c.nextJob

namespace Distinct

variable {c c' : Chronicle} {n : Nat} {t t' : Task} {o : Outside}

/-- Requests are only lost, or change their places. -/
theorem of_map (h : c.Distinct) {f : Nat → Nat} (hf : ∀ n m, f n = f m → n = m)
    (hpending : ∀ n job, c'.Pending n job → c.Pending (f n) job) (hjobs : c'.nextJob = c.nextJob)
    (hruns : c'.runJobs = c.runJobs) : c'.Distinct where
  nextJob_pos := hjobs ▸ h.nextJob_pos
  pending hn hm := hf _ _ (h.pending (hpending _ _ hn) (hpending _ _ hm))
  apart hn := hruns ▸ h.apart (hpending _ _ hn)
  runs := hruns ▸ h.runs
  pending_lt hn := hjobs ▸ h.pending_lt (hpending _ _ hn)
  runs_lt := by
    rw [hruns, hjobs]
    exact h.runs_lt

theorem of_subset (h : c.Distinct) (hpending : ∀ n job, c'.Pending n job → c.Pending n job)
    (hjobs : c'.nextJob = c.nextJob) (hruns : c'.runJobs = c.runJobs) : c'.Distinct :=
  h.of_map (f := fun n => n) (fun _ _ h => h) hpending hjobs hruns

/-- What is pending after a step of the n-th request was pending before, but for that request. -/
theorem pending_of_stepped (hstepped : Stepped o n t t' c c') {m job : Nat}
    (hpending : c'.Pending m job) :
    m ≠ n ∧ c.Pending m job ∨ m = n ∧ t'.part? ≠ none ∧ c'.taskJobs[n]? = some job := by
  obtain ⟨task, hm, hjob, hpart⟩ := hpending
  rw [hstepped.tasks] at hm
  by_cases hmn : m = n
  · subst hmn
    rw [List.getElem?_set_self'] at hm
    obtain ⟨_, -, rfl⟩ := Option.map_eq_some_iff.mp hm
    exact Or.inr ⟨rfl, hpart, hjob⟩
  · rw [List.getElem?_set_ne (Ne.symm hmn)] at hm
    have htaskJobs : c'.taskJobs[m]? = c.taskJobs[m]? := by
      rw [hstepped.taskJobs]
      split
      · exact List.getElem?_set_ne (Ne.symm hmn)
      · rfl
    rw [htaskJobs] at hjob
    exact Or.inl ⟨hmn, task, hm, hjob, hpart⟩

/-- A request goes on in its job, or ends. -/
theorem stepped_of_not_begins (h : c.Distinct) (hc : c.Paired) (hstepped : Stepped o n t t' c c')
    (hbegins : t.begins t' = false) (hstarts : t.starts = false) : c'.Distinct := by
  have hruns : c'.runJobs = c.runJobs := by
    rw [hstepped.runJobs, hstarts]
    rfl
  refine h.of_subset ?_ (hstepped.nextJob_of_not_begins hbegins) hruns
  intro m job hpending
  rcases pending_of_stepped hstepped hpending with ⟨-, hpending⟩ | ⟨rfl, hpart, hjob⟩
  · exact hpending
  · have hsame : t.part? ≠ none := by
      intro hnone
      unfold Task.begins at hbegins
      rw [hnone] at hbegins
      exact hpart (Option.not_isSome_iff_eq_none.mp (by simpa using hbegins))
    rw [hstepped.job_of_not_begins hc hbegins] at hjob
    exact ⟨t, hstepped.found, (hc.job hstepped.found).trans hjob, hsame⟩

/-- A request begins a job, with a number that no job has had. -/
theorem stepped_of_begins (h : c.Distinct) (hc : c.Paired) (hstepped : Stepped o n t t' c c')
    (hbegins : t.begins t' = true) (hstarts : t.starts = false) : c'.Distinct := by
  have hruns : c'.runJobs = c.runJobs := by
    rw [hstepped.runJobs, hstarts]
    rfl
  have hnext := hstepped.nextJob_of_begins hbegins
  have hpending : ∀ m job, c'.Pending m job →
      m ≠ n ∧ c.Pending m job ∨ m = n ∧ job = c.nextJob := by
    intro m job hm
    refine (pending_of_stepped hstepped hm).imp_right ?_
    rintro ⟨hmn, -, hjob⟩
    rw [hstepped.job_of_begins hc hbegins] at hjob
    exact ⟨hmn, (Option.some.inj hjob).symm⟩
  refine ⟨by omega, ?_, ?_, hruns ▸ h.runs, ?_, ?_⟩
  · intro m k job hm hk
    rcases hpending m job hm with ⟨-, hm⟩ | ⟨rfl, hjob⟩
    · rcases hpending k job hk with ⟨-, hk⟩ | ⟨rfl, hjob⟩
      · exact h.pending hm hk
      · have := (h.pending_lt hm).2
        omega
    · rcases hpending k job hk with ⟨-, hk⟩ | ⟨rfl, -⟩
      · have := (h.pending_lt hk).2
        omega
      · rfl
  · intro m job hm hmem
    rw [hruns] at hmem
    rcases hpending m job hm with ⟨-, hm⟩ | ⟨-, rfl⟩
    · exact h.apart hm hmem
    · exact Nat.lt_irrefl _ (h.runs_lt _ hmem).2
  · intro m job hm
    rcases hpending m job hm with ⟨-, hm⟩ | ⟨-, rfl⟩
    · have := h.pending_lt hm
      omega
    · have := h.nextJob_pos
      omega
  · intro job hmem
    rw [hruns] at hmem
    have := h.runs_lt job hmem
    omega

/-- A request starts the run of its job, and has no part in it any more. -/
theorem stepped_of_starts (h : c.Distinct) (hc : c.Paired) (hstepped : Stepped o n t t' c c')
    (hpart : t.part? ≠ none) (hpart' : t'.part? = none) (hstarts : t.starts = true) :
    c'.Distinct := by
  have hown : c.Pending n (c.taskJobs.getD n 0) :=
    ⟨t, hstepped.found, hc.job hstepped.found, hpart⟩
  have hruns : c'.runJobs = c.runJobs ++ [c.taskJobs.getD n 0] := by
    rw [hstepped.runJobs, hstarts]
    rfl
  have hnext := hstepped.nextJob_of_not_begins (Stepped.not_begins_of_none hpart')
  have hpending : ∀ m job, c'.Pending m job → m ≠ n ∧ c.Pending m job :=
    fun m job hm => (pending_of_stepped hstepped hm).resolve_right fun hn => hn.2.1 hpart'
  refine ⟨hnext ▸ h.nextJob_pos, ?_, ?_, ?_, ?_, ?_⟩
  · exact fun hm hk => h.pending (hpending _ _ hm).2 (hpending _ _ hk).2
  · intro m job hm hmem
    obtain ⟨hmn, hm⟩ := hpending m job hm
    rw [hruns, List.mem_append, List.mem_singleton] at hmem
    rcases hmem with hmem | rfl
    · exact h.apart hm hmem
    · exact hmn (h.pending hm hown)
  · rw [hruns]
    exact List.nodup_append.mpr ⟨h.runs, List.pairwise_singleton _ _, fun a ha b hb hab =>
      h.apart hown (List.mem_singleton.mp hb ▸ hab ▸ ha)⟩
  · intro m job hm
    rw [hnext]
    exact h.pending_lt (hpending m job hm).2
  · intro job hmem
    rw [hnext]
    rw [hruns, List.mem_append, List.mem_singleton] at hmem
    rcases hmem with hmem | rfl
    · exact h.runs_lt job hmem
    · exact h.pending_lt hown

theorem stepped (h : c.Distinct) (hc : c.Paired) (hstepped : Stepped o n t t' c c')
    (hstroke : Task.Stroke o c.service.world t t' c'.service.world) : c'.Distinct := by
  cases hbegins : t.begins t' with
  | true =>
    refine h.stepped_of_begins hc hstepped hbegins ?_
    cases hstroke with
    | rests _ _ hstarts | wrote _ _ _ _ _ _ _ _ _ hstarts | recorded _ _ _ _ _ hstarts
    | restarted _ _ _ _ _ hstarts | erased _ _ _ _ hstarts => exact hstarts
    | started run script hpart =>
      rw [Stepped.not_begins_of_some hpart] at hbegins
      cases hbegins
  | false =>
    cases hstroke with
    | rests _ _ hstarts | wrote _ _ _ _ _ _ _ _ _ hstarts | recorded _ _ _ _ _ hstarts
    | restarted _ _ _ _ _ hstarts | erased _ _ _ _ hstarts =>
      exact h.stepped_of_not_begins hc hstepped hbegins hstarts
    | started run script hpart hpart' _ hstarts =>
      refine h.stepped_of_starts hc hstepped ?_ hpart' hstarts
      rw [hpart]
      exact nofun

/-- Dropping a request moves those behind it up by one place. -/
theorem drop (h : c.Distinct) (setup : Setup) (n : Nat) : (c.next setup (.drop n)).Distinct := by
  refine h.of_map (f := fun m => if m < n then m else m + 1) ?_ ?_ rfl rfl
  · intro m k hmk
    split at hmk <;> split at hmk <;> omega
  · rintro m job ⟨t, hm, hjob, hpart⟩
    replace hm : (c.service.tasks.eraseIdx n)[m]? = some t := hm
    replace hjob : (c.taskJobs.eraseIdx n)[m]? = some job := hjob
    rw [List.getElem?_eraseIdx] at hm hjob
    split
    · rename_i hlt
      rw [if_pos hlt] at hm hjob
      exact ⟨t, hm, hjob, hpart⟩
    · rename_i hlt
      rw [if_neg hlt] at hm hjob
      exact ⟨t, hm, hjob, hpart⟩

theorem request (h : c.Distinct) (hc : c.Paired) (setup : Setup) (r : Request) (name : String) :
    (c.next setup (.request r name)).Distinct := by
  have hidle := Start.idle_ofRequest r name
  simp only [Chronicle.next, Service.next]
  cases hstart : Start.ofRequest r name with
  | response _ => exact h
  | task t =>
    rw [hstart] at hidle
    refine h.of_subset ?_ rfl rfl
    rintro m job ⟨task, hm, hjob, hpart⟩
    replace hm : (c.service.tasks ++ [t])[m]? = some task := hm
    replace hjob : (c.taskJobs ++ [0])[m]? = some job := hjob
    by_cases hlt : m < c.service.tasks.length
    · rw [List.getElem?_append_left hlt] at hm
      rw [List.getElem?_append_left (hc.tasks ▸ hlt)] at hjob
      exact ⟨task, hm, hjob, hpart⟩
    · rw [List.getElem?_append_right (by omega), List.getElem?_singleton] at hm
      obtain ⟨-, rfl⟩ := Option.ite_some_none_eq_some.mp hm
      obtain ⟨⟨id, part⟩, hsome⟩ := Option.ne_none_iff_exists'.mp hpart
      have hrole := Task.role_of_part hsome
      rw [hidle.1] at hrole
      cases hrole

/-- **Whatever happens, each job has one run at most.** -/
theorem next (h : c.Distinct) (hc : c.Paired) (hs : c.service.Orderly) (setup : Setup) (e : Event) :
    (c.next setup e).Distinct := by
  cases e with
  | request r name => exact h.request hc setup r name
  | step n o =>
    cases hn : c.service.tasks[n]? with
    | none =>
      simp only [Chronicle.next, hn]
      exact h
    | some t =>
      obtain ⟨hstepped, hworld⟩ := stepped_next setup o hn
      exact h.stepped hc hstepped (hworld ▸ Task.stroke_step
        (hs.tasks t (List.mem_of_getElem? hn)) setup o c.service.world)
  | drop n => exact h.drop setup n
  | run n fault =>
    simp only [Chronicle.next]
    cases c.service.world.runs[n]? with
    | none => exact h
    | some active => exact h.of_subset (fun _ _ hpending => hpending) rfl rfl

end Distinct

end Provisioner.Api.Chronicle
