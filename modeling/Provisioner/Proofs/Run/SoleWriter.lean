import Provisioner.Proofs.Deed

/-!
# A machine that only its run writes for

While a machine is being provisioned its row and its log change by one run alone. Until that run has
made its last write the row shows the machine as being provisioned; from then on the row and the
log stay as they are (`World.Attended`, `World.Continues`).

Before the run begins, lines may already be logged and notes be made for the machine, but by nobody
afterwards; whether the run has begun is given as `begun`.
-/

namespace Provisioner

open Database

/-! ## Deeds beside the run -/

/-- Whether a deed leaves the row and the log of a machine to its run. -/
def Deed.Spares (id : MachineId) : Deed → Prop
  | .write other _ => other ≠ id
  | .record new => new.id ≠ id
  | .restart other | .erase other => other ≠ id
  | .notify _ | .remove _ | .run _ _ => True

/-- Whether a deed may happen: before the run begins, a note of progress may be made for it. -/
def Deed.Fits (id : MachineId) (begun : Prop) (d : Deed) : Prop :=
  d.Spares id ∨ ¬begun ∧ ∃ call, d = .write id call ∧ call.isProgress = true

/-! ## The state of the machine -/

namespace World

/-- No run of a machine has anything left to write. -/
def IsOver (id : MachineId) (w : World) : Prop :=
  ∀ (n : Nat) (active : ActiveRun), w.runs[n]? = some active → active.run.machine = id →
    active.script.Silent

/-- Only the n-th run of a machine may have something left to write, and only once it has begun. -/
def HasSole (id : MachineId) (begun : Prop) (n : Nat) (w : World) : Prop :=
  ∀ (m : Nat) (active : ActiveRun), w.runs[m]? = some active → active.run.machine = id →
    active.script.Silent ∨ begun ∧ m = n ∧ active.script.Running

/-- A machine is being provisioned, or its run is over. -/
structure Attended (id : MachineId) (begun : Prop) (w : World) : Prop where
  ordered : w.database.LogOrdered
  sole : ∃ n, w.HasSole id begun n
  status : w.database.statusOf? id = some MachineStatus.provisioning.word ∨ begun ∧ w.IsOver id

/-- What becomes of the row and the log of a machine. -/
structure Continues (id : MachineId) (begun : Prop) (w w' : World) : Prop where
  entries : ∀ e ∈ w.database.entriesOf id, e ∈ w'.database.entriesOf id
  settled : begun → w.IsOver id → AgreesOn id w.database w'.database ∧ w'.IsOver id

variable {id : MachineId} {begun : Prop} {w w' : World}

/-- Entries are lost only when the log is cleared. -/
theorem mem_entriesOf_perform (db : Database) {call : Write} (hcall : call ≠ .clearLog)
    {e : LogEntry} (he : e ∈ db.entriesOf id) : e ∈ (db.perform id call).2.entriesOf id := by
  cases call with
  | append line =>
    obtain ⟨hmem, hmachine⟩ := mem_entriesOf.mp he
    refine mem_entriesOf.mpr ⟨?_, hmachine⟩
    simp only [perform, append]
    split
    · exact List.mem_append_left _ hmem
    · exact hmem
  | clearLog => exact absurd rfl hcall
  | _ => exact he

/-- A change that leaves the row, the log and the writes of the run alone. -/
theorem Attended.beside (h : w.Attended id begun) (hchange : w.database.LogChange w'.database)
    (hagree : AgreesOn id w.database w'.database)
    (hruns : ∀ (n : Nat) (active' : ActiveRun), w'.runs[n]? = some active' →
      active'.run.machine = id →
      ∃ active : ActiveRun, w.runs[n]? = some active ∧ active.run.machine = id ∧
        (active.script = active'.script ∨ active.script = .notify active'.script)) :
    w'.Attended id begun ∧ Continues id begun w w' := by
  have hsilent : ∀ {script script' : Script}, script = script' ∨ script = .notify script' →
      script.Silent → script'.Silent := by
    rintro script script' (rfl | rfl) hscript
    · exact hscript
    · cases hscript
      assumption
  have hrunning : ∀ {script script' : Script}, script = script' ∨ script = .notify script' →
      script.Running → script'.Running := by
    rintro script script' (rfl | rfl) hscript
    · exact hscript
    · cases hscript
      assumption
  have hover : w.IsOver id → w'.IsOver id := by
    intro hover n active' hn hid
    obtain ⟨active, hn, hid, hscript⟩ := hruns n active' hn hid
    exact hsilent hscript (hover n active hn hid)
  refine ⟨⟨hchange.logOrdered h.ordered, ?_, ?_⟩, ?_, fun _ h => ⟨hagree, hover h⟩⟩
  · obtain ⟨n, hn⟩ := h.sole
    refine ⟨n, ?_⟩
    intro m active' hm hid
    obtain ⟨active, hm, hid, hscript⟩ := hruns m active' hm hid
    rcases hn m active hm hid with hs | ⟨hbegun, hmn, hr⟩
    · exact Or.inl (hsilent hscript hs)
    · exact Or.inr ⟨hbegun, hmn, hrunning hscript hr⟩
  · rw [hagree.statusOf?_eq]
    exact h.status.imp_right fun h => ⟨h.1, hover h.2⟩
  · intro e he
    rw [hagree.entries]
    exact he

/-- The runs after one of them has gone on. -/
theorem getElem?_set_run {runs : List ActiveRun} {n m : Nat} {active active' : ActiveRun}
    {script : Script} (hn : runs[n]? = some active)
    (hm : (runs.set n { active with script })[m]? = some active') :
    (m = n ∧ active' = { active with script }) ∨ (m ≠ n ∧ runs[m]? = some active') := by
  by_cases hmn : m = n
  · subst hmn
    obtain ⟨hlt, -⟩ := List.getElem?_eq_some_iff.mp hn
    rw [List.getElem?_set_self hlt] at hm
    cases hm
    exact Or.inl ⟨rfl, rfl⟩
  · rw [List.getElem?_set_ne (Ne.symm hmn)] at hm
    exact Or.inr ⟨hmn, hm⟩

/-- A step in which a run of another machine goes on, or this one notifies. -/
theorem Attended.runBeside (h : w.Attended id begun) {db : Database} {hub : Hub} {n : Nat}
    {active : ActiveRun} {script : Script} (hn : w.runs[n]? = some active)
    (hscript : active.run.machine = id → active.script = .notify script)
    (hchange : w.database.LogChange db) (hagree : AgreesOn id w.database db) :
    ({ w with database := db, hub, runs := w.runs.set n { active with script } } : World).Attended
        id begun ∧
      Continues id begun w
        { w with database := db, hub, runs := w.runs.set n { active with script } } := by
  refine h.beside hchange hagree ?_
  intro m active' hm hid
  rcases getElem?_set_run hn hm with ⟨rfl, rfl⟩ | ⟨-, hm⟩
  · exact ⟨active, hn, hid, Or.inr (hscript hid)⟩
  · exact ⟨active', hm, hid, Or.inl rfl⟩

/-- A run of the machine that is about to write is the one that began, and the only one. -/
theorem Attended.sole_of_write (h : w.Attended id begun) {n : Nat} {active : ActiveRun}
    {call : Write} {next : Bool → Script} (hn : w.runs[n]? = some active)
    (hscript : active.script = .write call next) (hid : active.run.machine = id) :
    (begun ∧ (Script.write call next).Running ∧ ¬w.IsOver id) ∧
      ∀ (m : Nat) (active' : ActiveRun), m ≠ n → w.runs[m]? = some active' →
        active'.run.machine = id → active'.script.Silent := by
  obtain ⟨k, hk⟩ := h.sole
  have hactive := hk n active hn hid
  rw [hscript] at hactive
  obtain ⟨hbegun, rfl, hrunning⟩ := hactive.resolve_left Script.Silent.not_write
  refine ⟨⟨hbegun, hrunning, ?_⟩, ?_⟩
  · intro hover
    have hsilent := hover n active hn hid
    rw [hscript] at hsilent
    exact Script.Silent.not_write hsilent
  · intro m active' hmn hm hid'
    exact (hk m active' hm hid').resolve_right fun h => hmn h.2.1

/-- A step in which the run of the machine makes a write, which may fail. -/
theorem Attended.runWrites (h : w.Attended id begun) {db : Database} {n : Nat}
    {active : ActiveRun} {call : Write} {next : Bool → Script} {succeeded : Bool}
    (hn : w.runs[n]? = some active) (hscript : active.script = .write call next)
    (hid : active.run.machine = id)
    (hdb : db = w.database ∨ db = (w.database.perform id call).2) :
    ({ w with database := db, runs := w.runs.set n { active with script := next succeeded } } :
        World).Attended id begun ∧
      Continues id begun w
        { w with database := db, runs := w.runs.set n { active with script := next succeeded } } := by
  obtain ⟨⟨hbegun, hrunning, hnotOver⟩, hothers⟩ := h.sole_of_write hn hscript hid
  have hordered : db.LogOrdered := by
    rcases hdb with rfl | rfl
    · exact h.ordered
    · exact (logChange_perform _ _ _).logOrdered h.ordered
  have hclear : call ≠ .clearLog := by
    rintro rfl
    rcases hrunning.write_cases with ⟨hcall, -⟩ | ⟨status, hcall, -⟩
    · cases hcall
    · cases hcall
  have hentries : ∀ e ∈ w.database.entriesOf id, e ∈ db.entriesOf id := by
    rcases hdb with rfl | rfl
    · exact fun e he => he
    · exact fun e he => mem_entriesOf_perform _ hclear he
  -- only the write of the status ends the run; it is also the only one that changes the status
  refine ⟨⟨hordered, ⟨n, ?_⟩, ?_⟩, hentries, fun _ h => absurd h hnotOver⟩
  · intro m active' hm hid'
    rcases getElem?_set_run hn hm with ⟨rfl, rfl⟩ | ⟨hmn, hm⟩
    · rcases hrunning.write_cases with ⟨-, hnext⟩ | ⟨status, -, -, hnext⟩
      · exact Or.inr ⟨hbegun, rfl, hnext succeeded⟩
      · exact Or.inl (hnext succeeded)
    · exact Or.inl (hothers m active' hmn hm hid')
  · rcases hrunning.write_cases with ⟨hcall, -⟩ | ⟨status, -, -, hnext⟩
    · refine Or.inl ?_
      have hstatus := h.status.resolve_right fun h => hnotOver h.2
      rcases hdb with rfl | rfl
      · exact hstatus
      · rw [statusOf?_perform _ _ (Write.setsStatus_of_isProgress hcall)]
        exact hstatus
    · refine Or.inr ⟨hbegun, ?_⟩
      intro m active' hm hid'
      rcases getElem?_set_run hn hm with ⟨rfl, rfl⟩ | ⟨hmn, hm⟩
      · exact hnext succeeded
      · exact hothers m active' hmn hm hid'

/-- A note of progress that somebody makes before the run begins. -/
theorem Attended.noted (h : w.Attended id begun) (hbegun : ¬begun) {call : Write}
    (hcall : call.isProgress = true) :
    ({ w with database := (w.database.perform id call).2 } : World).Attended id begun ∧
      Continues id begun w { w with database := (w.database.perform id call).2 } := by
  refine ⟨⟨(logChange_perform _ _ _).logOrdered h.ordered, h.sole, ?_⟩, ?_, ?_⟩
  · rw [statusOf?_perform _ _ (Write.setsStatus_of_isProgress hcall)]
    exact h.status
  · intro e he
    refine mem_entriesOf_perform _ ?_ he
    rintro rfl
    cases hcall
  · exact fun h => absurd h hbegun

/-- **Whatever is done beside the run, the machine stays attended.** -/
theorem Attended.deed (h : w.Attended id begun) {d : Deed} (hd : d.Fits id begun) :
    (w.deed d).Attended id begun ∧ Continues id begun w (w.deed d) := by
  have hsame : ∀ {runs : List ActiveRun}, runs = w.runs →
      ∀ (n : Nat) (active' : ActiveRun), runs[n]? = some active' → active'.run.machine = id →
      ∃ active : ActiveRun, w.runs[n]? = some active ∧ active.run.machine = id ∧
        (active.script = active'.script ∨ active.script = .notify active'.script) := by
    rintro _ rfl n active' hn hid
    exact ⟨active', hn, hid, Or.inl rfl⟩
  rcases hd with hd | ⟨hbegun, call, rfl, hcall⟩
  · cases d with
    | write other call =>
      exact h.beside (w.logChange_deed _) (.perform _ (Ne.symm hd) _) (hsame rfl)
    | record new =>
      have hchange := w.logChange_deed (.record new)
      simp only [World.deed] at hchange ⊢
      cases hinsert : w.database.insert new with
      | error failure => exact h.beside (.refl _) (.refl _ _) (hsame rfl)
      | ok result =>
        exact h.beside (logChange_insert hinsert) (.insert hinsert (Ne.symm hd)) (hsame rfl)
    | restart other =>
      exact h.beside (w.logChange_deed _) (.beginReprovision _ (Ne.symm hd)) (hsame rfl)
    | erase other => exact h.beside (w.logChange_deed _) (.erase _ (Ne.symm hd)) (hsame rfl)
    | notify other => exact h.beside (w.logChange_deed _) (.refl _ _) (hsame rfl)
    | remove other => exact h.beside (w.logChange_deed _) (.refl _ _) (hsame rfl)
    | run n fault =>
      have hstep := runStep_spec w n fault
      simp only [World.deed]
      generalize w.runStep n fault = w' at hstep ⊢
      cases hstep with
      | idle => exact h.beside (.refl _) (.refl _ _) (hsame rfl)
      | @failed active call next hn hscript _ =>
        by_cases hid : active.run.machine = id
        · exact h.runWrites hn hscript hid (Or.inl rfl)
        · exact h.runBeside hn (fun h => absurd h hid) (.refl _) (.refl _ _)
      | @written active call next _ hn hscript _ =>
        by_cases hid : active.run.machine = id
        · subst hid
          exact h.runWrites hn hscript rfl (Or.inr rfl)
        · exact h.runBeside hn (fun h => absurd h hid) (logChange_perform _ _ _)
            (.perform _ (Ne.symm hid) _)
      | @notified active next hn hscript =>
        exact h.runBeside hn (fun _ => hscript) (.refl _) (.refl _ _)
  · exact h.noted hbegun hcall

/-- The run of the machine begins. -/
theorem Attended.start (h : w.Attended id False) (run : Run) {script : Script}
    (hscript : script.Running) : (w.start run script).Attended id True := by
  refine ⟨h.ordered, ⟨w.runs.length, ?_⟩, h.status.imp_right fun h => h.1.elim⟩
  obtain ⟨n, hn⟩ := h.sole
  intro m active hm hid'
  replace hm : (w.runs ++ [⟨run, script⟩])[m]? = some active := hm
  rcases Nat.lt_trichotomy m w.runs.length with hlt | rfl | hgt
  · rw [List.getElem?_append_left hlt] at hm
    exact Or.inl ((hn m active hm hid').resolve_right fun h => h.1)
  · rw [List.getElem?_concat_length] at hm
    cases hm
    exact Or.inr ⟨trivial, rfl, hscript⟩
  · rw [List.getElem?_eq_none (by rw [List.length_append, List.length_singleton]; omega)] at hm
    cases hm

end World

end Provisioner
