import Provisioner.Proofs.Probe
import Provisioner.Proofs.Store.Row
import Provisioner.Proofs.Tool.Outcome
import Provisioner.Run.Basic

/-!
# What a run asks of the store

A run goes on whatever becomes of its writes, so that they can be listed beforehand: each line with
the note that it may call for, what is noted at the end, and the status (`Run.writes`).

* `Script.Makes`: a script makes some writes whichever of them succeed.
* `Script.Announces`: each line and each status is followed by a notification at once.
* `Run.ends_with_status`: the status is written once, after all else, and says what came of the run.
-/

namespace Provisioner

/-- Whether a write is of a kind that viewers are told of at once. -/
def Write.isAnnounced : Write → Bool
  | .append _ | .setStatus _ => true
  | .clearLog | .setExtractedOutput _ | .setCredentialRemoved _ => false

namespace Script

/-- The lines that a script passes to the store, stored or not. -/
def appended (succeeds : Nat → Bool) (script : Script) : List String :=
  (Action.writes (script.trace succeeds)).filterMap Write.line?

/-- Whichever of them succeed, a script makes these writes. -/
inductive Makes : Script → List Write → Prop where
  | done : Makes .done []
  | notify {next : Script} {writes : List Write} (h : Makes next writes) :
      Makes (.notify next) writes
  | write {call : Write} {next : Bool → Script} {writes : List Write}
      (h : ∀ stored, Makes (next stored) writes) : Makes (.write call next) (call :: writes)

/-- Each line and each status is followed by a notification before anything else happens. -/
inductive Announces : Script → Prop where
  | done : Announces .done
  | notify {next : Script} (h : Announces next) : Announces (.notify next)
  | quiet {call : Write} {next : Bool → Script} (hcall : call.isAnnounced = false)
      (h : ∀ stored, Announces (next stored)) : Announces (.write call next)
  | announced {call : Write} {next : Bool → Script} (h : ∀ stored, Announces (next stored)) :
      Announces (.write call fun stored => .notify (next stored))

/-- The writes for a line: a line that tells that the provider's key was revoked calls for a note. -/
def lineWrites (line : String) : List Write :=
  .append line :: if tellsKeyRemoved line then [.setCredentialRemoved true] else []

/-! ## Traces -/

variable {script next : Script} {writes : List Write}

theorem Makes.writes_trace (h : script.Makes writes) (succeeds : Nat → Bool) :
    Action.writes (script.trace succeeds) = writes := by
  induction h generalizing succeeds with
  | done => rfl
  | notify _ ih => exact ih succeeds
  | @write call next writes _ ih =>
    have htail := ih (succeeds 0) fun n => succeeds (n + 1)
    simp only [Action.writes] at htail
    simp only [trace, Action.writes, List.filterMap_cons]
    rw [htail]

/-- A write among some actions, with what was written before and after it. -/
theorem exists_of_writes_eq {actions : List Action} {before after : List Write} {call : Write}
    (h : Action.writes actions = before ++ call :: after) :
    ∃ first stored last, actions = first ++ .write call stored :: last ∧
      Action.writes first = before ∧ Action.writes last = after := by
  unfold Action.writes at h
  obtain ⟨first, rest, rfl, hfirst, hrest⟩ := List.filterMap_eq_append_iff.mp h
  obtain ⟨skipped, action, last, rfl, hskipped, haction, hlast⟩ :=
    List.filterMap_eq_cons_iff.mp hrest
  cases action with
  | notify => cases haction
  | write call' stored =>
    cases haction
    refine ⟨first ++ skipped, stored, last, by rw [List.append_assoc], ?_, hlast⟩
    unfold Action.writes
    rw [List.filterMap_append, hfirst, List.filterMap_eq_nil_iff.mpr hskipped, List.append_nil]

theorem Announces.notify_of_trace (h : script.Announces) {succeeds : Nat → Bool}
    {before after : List Action} {call : Write} {stored : Bool} (hcall : call.isAnnounced = true)
    (htrace : script.trace succeeds = before ++ .write call stored :: after) :
    ∃ rest, after = .notify :: rest := by
  induction h generalizing succeeds before with
  | done =>
    rw [trace] at htrace
    simp at htrace
  | notify _ ih =>
    rw [trace] at htrace
    cases before with
    | nil => cases htrace
    | cons action before =>
      rw [List.cons_append] at htrace
      exact ih (List.cons.inj htrace).2
  | quiet hquiet _ ih =>
    rw [trace] at htrace
    cases before with
    | nil =>
      obtain ⟨hhead, -⟩ := List.cons.inj htrace
      cases hhead
      rw [hquiet] at hcall
      cases hcall
    | cons action before =>
      rw [List.cons_append] at htrace
      exact ih _ (List.cons.inj htrace).2
  | announced _ ih =>
    rw [trace, trace] at htrace
    cases before with
    | nil =>
      obtain ⟨-, htail⟩ := List.cons.inj htrace
      exact ⟨_, htail.symm⟩
    | cons action before =>
      rw [List.cons_append] at htrace
      obtain ⟨-, htail⟩ := List.cons.inj htrace
      cases before with
      | nil => cases htail
      | cons action' before =>
        rw [List.cons_append] at htail
        exact ih _ (List.cons.inj htail).2

/-! ## Lines -/

theorem makes_logLine (line : String) (h : next.Makes writes) :
    (logLine line next).Makes (lineWrites line ++ writes) := by
  unfold lineWrites
  refine .write fun _ => .notify ?_
  -- whether the note is stored decides on a notification, but not on the writes that follow
  split
  · refine .write fun stored => ?_
    cases stored with
    | true => exact .notify h
    | false => exact h
  · exact h

theorem makes_logLines (lines : List String) (h : next.Makes writes) :
    (logLines lines next).Makes (lines.flatMap lineWrites ++ writes) := by
  induction lines with
  | nil => exact h
  | cons line lines ih =>
    rw [logLines_cons, List.flatMap_cons, List.append_assoc]
    exact makes_logLine line ih

theorem announces_logLine (line : String) (h : next.Announces) : (logLine line next).Announces := by
  refine .announced fun _ => ?_
  split
  · refine .quiet rfl fun stored => ?_
    cases stored with
    | true => exact .notify h
    | false => exact h
  · exact h

theorem announces_logLines (lines : List String) (h : next.Announces) :
    (logLines lines next).Announces := by
  induction lines with
  | nil => exact h
  | cons line lines ih => exact announces_logLine line ih

theorem isProgress_of_mem_lineWrites {line : String} {call : Write} (h : call ∈ lineWrites line) :
    call.isProgress = true := by
  unfold lineWrites at h
  rcases List.mem_cons.mp h with rfl | h
  · rfl
  · split at h
    · rw [List.mem_singleton.mp h]
      rfl
    · cases h

theorem line?_lineWrites (line : String) : (lineWrites line).filterMap Write.line? = [line] := by
  unfold lineWrites
  split <;> rfl

theorem line?_flatMap_lineWrites (lines : List String) :
    (lines.flatMap lineWrites).filterMap Write.line? = lines := by
  induction lines with
  | nil => rfl
  | cons line lines ih =>
    rw [List.flatMap_cons, List.filterMap_append, line?_lineWrites, ih, List.singleton_append]

end Script

namespace Run

open Script

variable {run : Run} {equipment : Equipment} {c : Circumstances}

/-! ## The writes of a run -/

/-- The lines that a run logs after those of the tool. -/
def closingLines : Except RunFailure String → List String
  | .ok wallet => if wallet.isEmpty then [] else [walletLine wallet]
  | .error failure => [failureLine failure]

/-- The lines that a run logs. -/
def lines (run : Run) (equipment : Equipment) (c : Circumstances) : List String :=
  (run.report equipment c).lines ++ closingLines (run.report equipment c).result

/-- What a run writes after the lines of the tool and before its status. -/
def closingWrites (inputs : Inputs) : Except RunFailure String → List Write
  | .ok wallet =>
    (if wallet.isEmpty then [] else lineWrites (walletLine wallet) ++ [.setExtractedOutput wallet]) ++
      if inputs.installsAccessKey then [.setCredentialRemoved true] else []
  | .error failure => lineWrites (failureLine failure)

/-- What a run writes before its status. -/
def notes (run : Run) (equipment : Equipment) (c : Circumstances) : List Write :=
  (run.report equipment c).lines.flatMap lineWrites ++
    closingWrites run.inputs (run.report equipment c).result

/-- What a run writes. -/
def writes (run : Run) (equipment : Equipment) (c : Circumstances) : List Write :=
  run.notes equipment c ++ [.setStatus (run.status equipment c)]

theorem status_of_ok {wallet : String} (h : (run.report equipment c).result = .ok wallet) :
    run.status equipment c = .ready := by
  unfold status
  rw [h]

theorem status_of_error {failure : RunFailure}
    (h : (run.report equipment c).result = .error failure) :
    run.status equipment c = .failed := by
  unfold status
  rw [h]

theorem makes_finish (status : MachineStatus) : (finish status).Makes [.setStatus status] :=
  .write fun _ => .notify .done

theorem makes_noteKey (inputs : Inputs) {next : Script} {writes : List Write}
    (h : next.Makes writes) :
    (noteKey inputs next).Makes
      ((if inputs.installsAccessKey then [.setCredentialRemoved true] else []) ++ writes) := by
  unfold noteKey
  split
  · exact .write fun _ => h
  · exact h

theorem makes_noteWallet (wallet : String) {next : Script} {writes : List Write}
    (h : next.Makes writes) :
    (noteWallet wallet next).Makes
      ((if wallet.isEmpty then []
        else lineWrites (walletLine wallet) ++ [.setExtractedOutput wallet]) ++ writes) := by
  unfold noteWallet
  split
  · exact h
  · rw [List.append_assoc]
    exact makes_logLine _ (.write fun _ => h)

/-- **Whichever of its writes succeed, a run makes the same writes.** -/
theorem makes_script (run : Run) (equipment : Equipment) (c : Circumstances) :
    (run.script equipment c).Makes (run.writes equipment c) := by
  unfold script writes notes
  rw [List.append_assoc]
  refine makes_logLines _ ?_
  cases hresult : (run.report equipment c).result with
  | ok wallet =>
    rw [status_of_ok hresult, conclude, closingWrites, List.append_assoc]
    exact makes_noteWallet wallet (makes_noteKey run.inputs (makes_finish .ready))
  | error failure =>
    rw [status_of_error hresult, conclude, closingWrites]
    exact makes_logLine _ (makes_finish .failed)

theorem announces_finish (status : MachineStatus) : (finish status).Announces :=
  .announced fun _ => .done

/-- **Every line and the status of a run are announced at once.** -/
theorem announces_script (run : Run) (equipment : Equipment) (c : Circumstances) :
    (run.script equipment c).Announces := by
  refine announces_logLines _ ?_
  cases (run.report equipment c).result with
  | ok wallet =>
    have hkey : (noteKey run.inputs (finish .ready)).Announces := by
      unfold noteKey
      split
      · exact .quiet rfl fun _ => announces_finish .ready
      · exact announces_finish .ready
    show (noteWallet wallet (noteKey run.inputs (finish .ready))).Announces
    unfold noteWallet
    split
    · exact hkey
    · exact announces_logLine _ (.quiet rfl fun _ => hkey)
  | error failure => exact announces_logLine _ (announces_finish .failed)

theorem isProgress_of_mem_notes {call : Write} (h : call ∈ run.notes equipment c) :
    call.isProgress = true := by
  rcases List.mem_append.mp h with h | h
  · obtain ⟨line, -, hline⟩ := List.mem_flatMap.mp h
    exact isProgress_of_mem_lineWrites hline
  · cases hresult : (run.report equipment c).result with
    | ok wallet =>
      rw [hresult, closingWrites] at h
      rcases List.mem_append.mp h with h | h
      · split at h
        · cases h
        · rcases List.mem_append.mp h with h | h
          · exact isProgress_of_mem_lineWrites h
          · rw [List.mem_singleton.mp h]
            rfl
      · split at h
        · rw [List.mem_singleton.mp h]
          rfl
        · cases h
    | error failure =>
      rw [hresult, closingWrites] at h
      exact isProgress_of_mem_lineWrites h

theorem line?_writes (run : Run) (equipment : Equipment) (c : Circumstances) :
    (run.writes equipment c).filterMap Write.line? = run.lines equipment c := by
  have hstatus : ∀ status, [Write.setStatus status].filterMap Write.line? = [] := fun _ => rfl
  unfold writes notes lines
  rw [List.filterMap_append, List.filterMap_append, line?_flatMap_lineWrites, hstatus,
    List.append_nil]
  congr 1
  cases (run.report equipment c).result with
  | ok wallet =>
    have hkey : ∀ b : Bool,
        (if b then [Write.setCredentialRemoved true] else []).filterMap Write.line? = [] := by
      intro b
      cases b <;> rfl
    rw [closingWrites, closingLines, List.filterMap_append, hkey, List.append_nil]
    split
    · rfl
    · rw [List.filterMap_append, line?_lineWrites]
      rfl
  | error failure => exact line?_lineWrites _

theorem appended_script (run : Run) (equipment : Equipment) (c : Circumstances)
    (succeeds : Nat → Bool) :
    (run.script equipment c).appended succeeds = run.lines equipment c := by
  unfold appended
  rw [(run.makes_script equipment c).writes_trace succeeds, line?_writes]

/-! ## What comes of a run -/

theorem report_of_reached
    (h : (equipment.prober.probe run.mode run.address c.connect).reached = true) :
    run.report equipment c =
      ⟨run.mode.openingLine :: (equipment.prober.probe run.mode run.address c.connect).lines ++
        (c.tool.report equipment.tool run.inputs).lines,
        (c.tool.report equipment.tool run.inputs).result⟩ :=
  if_pos h

theorem report_of_unreached
    (h : ¬(equipment.prober.probe run.mode run.address c.connect).reached = true) :
    run.report equipment c =
      ⟨run.mode.openingLine :: (equipment.prober.probe run.mode run.address c.connect).lines,
        .error (run.unreachable equipment)⟩ :=
  if_neg h

/-- One of the attempts that the policy of a run allows is accepted. -/
def Reaches (run : Run) (equipment : Equipment) (c : Circumstances) : Prop :=
  ∃ k, 0 < k ∧ k ≤ (equipment.prober.policy run.mode).attempts ∧ c.connect k = .accepted

theorem result_eq_ok_iff {wallet : String} :
    (run.report equipment c).result = .ok wallet ↔
      run.Reaches equipment c ∧ ∃ e, c.tool.Succeeds equipment.tool run.inputs e ∧ e.wallet = wallet := by
  unfold Reaches
  rw [← Prober.reached_probe equipment.prober run.mode run.address c.connect]
  by_cases h : (equipment.prober.probe run.mode run.address c.connect).reached = true
  · rw [report_of_reached h, Tool.Attempt.result_report_eq_ok_iff, and_iff_right h]
  · rw [report_of_unreached h]
    constructor
    · intro hresult
      cases hresult
    · rintro ⟨hreached, -⟩
      exact absurd hreached h

theorem status_eq_ready_iff :
    run.status equipment c = .ready ↔
      run.Reaches equipment c ∧ ∃ e, c.tool.Succeeds equipment.tool run.inputs e := by
  cases hresult : (run.report equipment c).result with
  | ok wallet =>
    obtain ⟨hreached, e, htool, -⟩ := result_eq_ok_iff.mp hresult
    exact ⟨fun _ => ⟨hreached, e, htool⟩, fun _ => status_of_ok hresult⟩
  | error failure =>
    rw [status_of_error hresult]
    constructor
    · intro h
      cases h
    · rintro ⟨hreached, e, htool⟩
      rw [result_eq_ok_iff.mpr ⟨hreached, e, htool, rfl⟩] at hresult
      cases hresult

/--
**A run ends with its status, whichever of its writes succeed.** It writes one status, after all
else, and a notification follows. Each line is announced before anything else is written. The status
is ready just when the machine was reached and the tool succeeded; otherwise it is failed, the last
line gives the reason, and no address of a wallet was noted.
-/
theorem ends_with_status (run : Run) (equipment : Equipment) (c : Circumstances)
    (succeeds : Nat → Bool) :
    (∃ before stored after, (run.script equipment c).trace succeeds =
        before ++ .write (.setStatus (run.status equipment c)) stored :: .notify :: after ∧
      (∀ status, .setStatus status ∉ Action.writes before) ∧ Action.writes after = []) ∧
    (∀ before line stored after, (run.script equipment c).trace succeeds =
        before ++ .write (.append line) stored :: after → ∃ rest, after = .notify :: rest) ∧
    (run.status equipment c = .ready ↔
      run.Reaches equipment c ∧ ∃ e, c.tool.Succeeds equipment.tool run.inputs e) ∧
    (run.status equipment c ≠ .ready → run.status equipment c = .failed ∧
      (∃ failure, (run.report equipment c).result = .error failure ∧
        ((run.script equipment c).appended succeeds).getLast? =
          some ("Provisioning failed: " ++ failure.message)) ∧
      ∀ value, .setExtractedOutput value ∉ Action.writes ((run.script equipment c).trace succeeds)) := by
  have hwrites := (run.makes_script equipment c).writes_trace succeeds
  have hannounces := run.announces_script equipment c
  refine ⟨?_, ?_, status_eq_ready_iff, ?_⟩
  · obtain ⟨before, stored, after, htrace, hbefore, hafter⟩ := exists_of_writes_eq hwrites
    obtain ⟨rest, rfl⟩ := hannounces.notify_of_trace rfl htrace
    refine ⟨before, stored, rest, htrace, ?_, hafter⟩
    intro status hmem
    rw [hbefore] at hmem
    cases isProgress_of_mem_notes hmem
  · intro before line stored after htrace
    exact hannounces.notify_of_trace rfl htrace
  · intro hstatus
    cases hresult : (run.report equipment c).result with
    | ok wallet => exact absurd (status_of_ok hresult) hstatus
    | error failure =>
      refine ⟨status_of_error hresult, ⟨failure, rfl, ?_⟩, ?_⟩
      · rw [appended_script, lines, hresult, closingLines, List.getLast?_concat]
        rfl
      · intro value hmem
        rw [hwrites] at hmem
        unfold writes notes at hmem
        rw [hresult, closingWrites] at hmem
        -- the output is noted by no line, and a run that fails makes no other notes
        have hline : ∀ line, .setExtractedOutput value ∉ lineWrites line := by
          intro line h
          unfold lineWrites at h
          split at h <;> simp at h
        simp [hline] at hmem

/-- A run with one key. -/
def withKey : Run :=
  ⟨1, "192.0.2.1", { Inputs.empty with anthropicKey := some "sk-ant-abc123" }, .initial⟩

end Run

/-- The prober that is used unless another one is set up, and a tool without extra arguments. -/
def Equipment.plain : Equipment :=
  ⟨.standard, ⟨"ansible-playbook", "site.yml", "key", [], 30000⟩⟩

end Provisioner
