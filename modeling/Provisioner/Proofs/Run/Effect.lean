import Provisioner.Proofs.Deed
import Provisioner.Proofs.Run.Trace
import Provisioner.Proofs.Store.Writes
import Provisioner.Proofs.Text.Search

/-!
# What a run leaves in the store

If no statement fails and nothing else happens meanwhile, the steps of a run carry out its script
(`World.exists_runs_eq_carryOut`), and that means making its writes one after the other
(`Database.carryOut_eq_performAll`). The row of its machine then shows what came of the run
(`Run.Settles`), the log holds its lines after the old ones, and no other machine is touched.
-/

namespace Provisioner

open Database

/-! ## A script on its own -/

/-- The database once a script was carried out for a machine, with no failure and nothing between. -/
def Database.carryOut (db : Database) (id : MachineId) (script : Script) : Database :=
  script.execute (fun call db => ((db.perform id call).1.isOk, (db.perform id call).2))
    (fun db => db) db

/-- Carrying out a script means making its writes one after the other. -/
theorem Database.carryOut_eq_performAll {script : Script} {writes : List Write}
    (h : script.Makes writes) (db : Database) (id : MachineId) :
    db.carryOut id script = db.performAll id writes := by
  induction h generalizing db with
  | done => rfl
  | notify _ ih => exact ih db
  | write _ ih => exact ih _ _

namespace World

variable {w : World} {n : Nat} {run : Run} {script : Script}

/-- A step of the n-th run leaves it with what follows in its script. -/
theorem deed_run_spec (hn : w.runs[n]? = some ⟨run, script⟩) :
    (w.deed (.run n none)).runs[n]? = some ⟨run, (w.scriptStep run.machine none script).1⟩ ∧
      (w.deed (.run n none)).database = (w.scriptStep run.machine none script).2.database := by
  obtain ⟨hlt, -⟩ := List.getElem?_eq_some_iff.mp hn
  simp only [deed, runStep, hn, and_true]
  cases script with
  | done => exact List.getElem?_set_self hlt
  | write call next => exact List.getElem?_set_self hlt
  | notify next => exact List.getElem?_set_self hlt

/-- The steps of a run with no failure and nothing between carry out its script. -/
theorem exists_runs_eq_carryOut (hn : w.runs[n]? = some ⟨run, script⟩) :
    ∃ k, ((List.replicate k (.run n none)).foldl deed w).runs[n]? = some ⟨run, .done⟩ ∧
      ((List.replicate k (.run n none)).foldl deed w).database =
        w.database.carryOut run.machine script := by
  induction script generalizing w with
  | done => exact ⟨0, hn, rfl⟩
  | write call next ih =>
    obtain ⟨hnext, hdatabase⟩ := deed_run_spec hn
    obtain ⟨k, hdone, hrest⟩ := ih _ hnext
    rw [hdatabase] at hrest
    exact ⟨k + 1, hdone, hrest⟩
  | notify next ih =>
    obtain ⟨hnext, hdatabase⟩ := deed_run_spec hn
    obtain ⟨k, hdone, hrest⟩ := ih hnext
    rw [hdatabase] at hrest
    exact ⟨k + 1, hdone, hrest⟩

end World

/-! ## The row after the writes of a run -/

namespace Script

theorem foldl_lineWrites (line : String) (m : Machine) :
    (lineWrites line).foldl Machine.write m =
      { m with credentialRemoved := m.credentialRemoved || tellsKeyRemoved line } := by
  unfold lineWrites
  cases tellsKeyRemoved line with
  | true =>
    rw [Bool.or_true]
    rfl
  | false =>
    rw [Bool.or_false]
    rfl

theorem foldl_flatMap_lineWrites (lines : List String) (m : Machine) :
    (lines.flatMap lineWrites).foldl Machine.write m =
      { m with credentialRemoved := m.credentialRemoved || lines.any tellsKeyRemoved } := by
  induction lines generalizing m with
  | nil =>
    rw [List.any_nil, Bool.or_false]
    rfl
  | cons line lines ih =>
    rw [List.flatMap_cons, List.foldl_append, foldl_lineWrites, ih, List.any_cons, Bool.or_assoc]

/-- The marker of a revoked key stands in the lines that tell of it, and in no others. -/
theorem tellsKeyRemoved_iff {line : String} :
    tellsKeyRemoved line = true ↔ keyRemovedMarker.toList <:+: line.toList := Text.occursIn_iff

end Script

theorem Inputs.installsAccessKey_iff {inputs : Inputs} :
    inputs.installsAccessKey = true ↔ ∃ key, inputs.sshPublicKey = some key ∧ key ≠ "" := by
  unfold installsAccessKey present
  cases inputs.sshPublicKey with
  | none => simp
  | some key => simp

namespace Run

open Script

variable {run : Run} {equipment : Equipment} {c : Circumstances}

/-- What is shown as extracted from the output after a run, given what was shown before. -/
def extracted (before : String) : Except RunFailure String → String
  | .ok wallet => if wallet.isEmpty then before else wallet
  | .error _ => before

/-- Whether a run notes, when all went well, that the provider's own key was replaced. -/
def replacesKey (inputs : Inputs) : Except RunFailure String → Bool
  | .ok _ => inputs.installsAccessKey
  | .error _ => false

theorem foldl_closingWrites (inputs : Inputs) (result : Except RunFailure String) (m : Machine) :
    (closingWrites inputs result).foldl Machine.write m =
      { m with
        extractedOutput := extracted m.extractedOutput result
        credentialRemoved := m.credentialRemoved || (closingLines result).any tellsKeyRemoved ||
          replacesKey inputs result } := by
  cases result with
  | error failure =>
    rw [closingWrites, foldl_lineWrites, closingLines, List.any_cons, List.any_nil, Bool.or_false,
      replacesKey, Bool.or_false, extracted]
  | ok wallet =>
    have hkey : ∀ m : Machine,
        (if inputs.installsAccessKey then [Write.setCredentialRemoved true] else []).foldl
            Machine.write m =
          { m with credentialRemoved := m.credentialRemoved || inputs.installsAccessKey } := by
      intro m
      cases inputs.installsAccessKey with
      | true =>
        rw [Bool.or_true]
        rfl
      | false =>
        rw [Bool.or_false]
        rfl
    rw [closingWrites, List.foldl_append, hkey, closingLines, replacesKey, extracted]
    split
    · rw [List.any_nil, Bool.or_false, List.foldl_nil]
    · rw [List.foldl_append, foldl_lineWrites, List.any_cons, List.any_nil, Bool.or_false]
      rfl

/-- **The row shows what came of the run, and is as it was otherwise.** -/
theorem foldl_writes (run : Run) (equipment : Equipment) (c : Circumstances) (m : Machine) :
    (run.writes equipment c).foldl Machine.write m =
      { m with
        status := (run.status equipment c).word
        extractedOutput := extracted m.extractedOutput (run.report equipment c).result
        credentialRemoved := m.credentialRemoved ||
          (run.lines equipment c).any tellsKeyRemoved ||
            replacesKey run.inputs (run.report equipment c).result } := by
  unfold writes notes lines
  rw [List.foldl_append, List.foldl_append, foldl_flatMap_lineWrites, foldl_closingWrites,
    List.any_append, ← Bool.or_assoc]
  rfl

/-- What a run makes of the row of its machine. -/
structure Settles (run : Run) (equipment : Equipment) (c : Circumstances) (row row' : Machine) :
    Prop where
  status : row'.status = (run.status equipment c).word
  /-- A run that succeeds leaves the address that the tool printed, if it printed one. -/
  extracted_of_ready : run.status equipment c = .ready →
    ∃ e, c.tool.Succeeds equipment.tool run.inputs e ∧
      row'.extractedOutput = if e.wallet = "" then row.extractedOutput else e.wallet
  extracted_of_failed : run.status equipment c ≠ .ready →
    row'.extractedOutput = row.extractedOutput
  credentialRemoved : row'.credentialRemoved = true ↔
    row.credentialRemoved = true ∨
    (∃ line ∈ run.lines equipment c, keyRemovedMarker.toList <:+: line.toList) ∨
    run.status equipment c = .ready ∧ ∃ key, run.inputs.sshPublicKey = some key ∧ key ≠ ""
  /-- Nothing else in the row changes, but for the time of the last change. -/
  rest : row' = { row with
    status := row'.status
    extractedOutput := row'.extractedOutput
    credentialRemoved := row'.credentialRemoved
    updatedAt := row'.updatedAt }

theorem extracted_of_ready (before : String) (h : run.status equipment c = .ready) :
    ∃ e, c.tool.Succeeds equipment.tool run.inputs e ∧
      extracted before (run.report equipment c).result = if e.wallet = "" then before else e.wallet := by
  cases hresult : (run.report equipment c).result with
  | ok wallet =>
    obtain ⟨-, e, htool, rfl⟩ := result_eq_ok_iff.mp hresult
    refine ⟨e, htool, ?_⟩
    unfold extracted
    simp only [String.isEmpty_iff]
  | error failure =>
    rw [status_of_error hresult] at h
    cases h

theorem extracted_of_failed (before : String) (h : run.status equipment c ≠ .ready) :
    extracted before (run.report equipment c).result = before := by
  cases hresult : (run.report equipment c).result with
  | ok wallet => exact absurd (status_of_ok hresult) h
  | error failure => rfl

theorem replacesKey_iff :
    replacesKey run.inputs (run.report equipment c).result = true ↔
      run.status equipment c = .ready ∧ ∃ key, run.inputs.sshPublicKey = some key ∧ key ≠ "" := by
  cases hresult : (run.report equipment c).result with
  | ok wallet =>
    rw [status_of_ok hresult, replacesKey, Inputs.installsAccessKey_iff]
    simp
  | error failure =>
    rw [status_of_error hresult, replacesKey]
    simp

theorem settles_foldl_writes (run : Run) (equipment : Equipment) (c : Circumstances)
    (row : Machine) (time : Timestamp) :
    run.Settles equipment c row
      { (run.writes equipment c).foldl Machine.write row with updatedAt := time } := by
  rw [foldl_writes]
  refine ⟨rfl, extracted_of_ready _, extracted_of_failed _, ?_, rfl⟩
  show (_ || _ || _) = true ↔ _
  rw [Bool.or_eq_true, Bool.or_eq_true, List.any_eq_true, replacesKey_iff, or_assoc]
  simp only [tellsKeyRemoved_iff]

/--
**What a run leaves in a store that does not fail.** The row of its machine shows what came of it,
its lines stand in the log behind the old ones, and all other machines are as they were.
-/
theorem settles_carryOut (run : Run) (equipment : Equipment) (c : Circumstances) {db : Database}
    {row : Machine} (hrow : db.find? run.machine = some row) :
    (∃ row', (db.carryOut run.machine (run.script equipment c)).find? run.machine = some row' ∧
      run.Settles equipment c row row') ∧
    (∃ added, (db.carryOut run.machine (run.script equipment c)).entriesOf run.machine =
        db.entriesOf run.machine ++ added ∧
      added.map (·.line) = run.lines equipment c) ∧
    ∀ other ≠ run.machine,
      AgreesOn other db (db.carryOut run.machine (run.script equipment c)) := by
  -- the log is cleared before a run, never in it
  have hwrites : ∀ call ∈ run.writes equipment c, call ≠ .clearLog := by
    rintro _ hcall rfl
    rcases List.mem_append.mp hcall with hcall | hcall
    · cases isProgress_of_mem_notes hcall
    · cases List.mem_singleton.mp hcall
  rw [carryOut_eq_performAll (run.makes_script equipment c)]
  refine ⟨?_, ?_, fun other hne => .performAll db hne _⟩
  · obtain ⟨time, hstored⟩ := find?_performAll hrow (run.writes equipment c)
    exact ⟨_, hstored, settles_foldl_writes run equipment c row time⟩
  · obtain ⟨added, hentries, hlines⟩ := entriesOf_performAll hrow hwrites
    exact ⟨added, hentries, hlines.trans (line?_writes run equipment c)⟩

end Run

/-! ## A run that succeeds, beside another machine -/

/-- Two machines that are being provisioned, each with a line in its log. -/
def Database.withTwoMachines : Database :=
  { machines := [NewMachine.row ⟨1, "web", "192.0.2.1", "hetzner", .empty⟩ ⟨0, 0⟩,
      NewMachine.row ⟨2, "mail", "192.0.2.2", "hetzner", .empty⟩ ⟨0, 0⟩]
    log := [⟨1, 1, "Creating server", ⟨0, 0⟩⟩, ⟨2, 2, "Creating server", ⟨0, 0⟩⟩]
    nextEntry := 3, clock := 1 }

/-- The machine answers, and the tool tells that the key was revoked and prints an address. -/
def Circumstances.completed : Circumstances :=
  ⟨fun _ => .accepted, ⟨.ok "inventory.ini",
    .ok ⟨[Text.Utf8.encode "Hetzner provisioning key removed\nWALLET_ADDRESS=0xabc\n".toList], [],
      [], .code 0, 61⟩⟩⟩

theorem Run.settles_carryOut_completed :
    ∃ row row' added,
      withTwoMachines.find? withKey.machine = some row ∧
      (withTwoMachines.carryOut 1 (withKey.script .plain .completed)).find? 1 = some row' ∧
      withKey.Settles .plain .completed row row' ∧
      (row'.status, row'.extractedOutput, row'.credentialRemoved) = ("ready", "0xabc", true) ∧
      (withTwoMachines.carryOut 1 (withKey.script .plain .completed)).entriesOf 1 =
        withTwoMachines.entriesOf 1 ++ added ∧
      added.map (·.line) = withKey.lines .plain .completed ∧
      AgreesOn 2 withTwoMachines
        (withTwoMachines.carryOut 1 (withKey.script .plain .completed)) := by
  have hrow : withTwoMachines.find? withKey.machine = some _ := rfl
  obtain ⟨⟨row', hstored, hsettles⟩, ⟨added, hentries, hlines⟩, hothers⟩ :=
    settles_carryOut withKey .plain .completed hrow
  have hshown : ((withTwoMachines.carryOut 1 (withKey.script .plain .completed)).find? 1).map
      (fun m => (m.status, m.extractedOutput, m.credentialRemoved)) =
        some ("ready", "0xabc", true) := by
    decide +kernel
  refine ⟨_, row', added, hrow, hstored, hsettles, ?_, hentries, hlines, hothers 2 (by decide)⟩
  exact Option.some.inj ((congrArg _ hstored).symm.trans hshown)

end Provisioner
