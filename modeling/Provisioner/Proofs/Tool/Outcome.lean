import Provisioner.Tool.Report

/-!
# When the configuration tool succeeds

The tool succeeds if its inventory can be written, it can be started, and it exits with the code
zero. Only then does its report hold an address of a wallet, and that is the one in the transcript.
-/

namespace Provisioner.Tool

/-- The address of the wallet in what is kept of the output, empty if there is none. -/
def Execution.wallet (e : Execution) : String :=
  Marker.extract Marker.walletAddress (Transcript.ofLines (received e.events))

/-- The inventory is written, and the tool is started with the inputs and exits with zero. -/
structure Attempt.Succeeds (a : Attempt) (settings : Settings) (inputs : Inputs) (e : Execution) :
    Prop where
  invoked : ∃ path, a.inventory = .ok path ∧ (invocation settings path inputs).fault? = none
  started : a.execution = .ok e
  ended : e.exit = .code 0

theorem Execution.conclude_eq_ok_iff {e : Execution} {transcript wallet : String} :
    conclude e transcript = .ok wallet ↔
      e.exit = .code 0 ∧ Marker.extract Marker.walletAddress transcript = wallet := by
  unfold conclude
  cases hexit : e.exit with
  | lost reason => simp
  | signal number dumped => simp [Exit.isSuccess]
  | code value =>
    by_cases hzero : value = 0
    · simp [Exit.isSuccess, hzero]
    · simp [Exit.isSuccess, hzero]

namespace Attempt

variable {a : Attempt} {settings : Settings} {inputs : Inputs}

theorem started_eq_ok_iff {path : String} {e : Execution} :
    a.started settings path inputs = .ok e ↔
      (invocation settings path inputs).fault? = none ∧ a.execution = .ok e := by
  unfold started
  cases (invocation settings path inputs).fault? with
  | some fault => simp
  | none => simp

/-- **The report holds an address just when the tool succeeds, and it is the one printed.** -/
theorem result_report_eq_ok_iff {wallet : String} :
    (a.report settings inputs).result = .ok wallet ↔
      ∃ e, a.Succeeds settings inputs e ∧ e.wallet = wallet := by
  unfold report
  cases hinventory : a.inventory with
  | error reason =>
    constructor
    · intro h
      cases h
    · rintro ⟨e, ⟨⟨path, hpath, -⟩, -, -⟩, -⟩
      rw [hinventory] at hpath
      cases hpath
  | ok path =>
    cases hstarted : a.started settings path inputs with
    | error fault =>
      simp only [hstarted]
      constructor
      · intro h
        cases h
      · rintro ⟨e, ⟨⟨path', hpath, hfault⟩, hexecution, -⟩, -⟩
        rw [hinventory] at hpath
        cases hpath
        rw [started_eq_ok_iff.mpr ⟨hfault, hexecution⟩] at hstarted
        cases hstarted
    | ok e =>
      obtain ⟨hfault, hexecution⟩ := started_eq_ok_iff.mp hstarted
      simp only [hstarted]
      show conclude e _ = .ok wallet ↔ _
      rw [Execution.conclude_eq_ok_iff]
      constructor
      · rintro ⟨hended, hwallet⟩
        exact ⟨e, ⟨⟨path, hinventory, hfault⟩, hexecution, hended⟩, hwallet⟩
      · rintro ⟨e', ⟨-, hstarted', hended⟩, hwallet⟩
        rw [hexecution] at hstarted'
        cases hstarted'
        exact ⟨hended, hwallet⟩

end Attempt

end Provisioner.Tool
