import Provisioner.Proofs.Log.Redactor
import Provisioner.Proofs.Run.Steady
import Provisioner.Proofs.Tool.Invocation

/-!
# What a run does with secrets that the tool does not print

The inputs of a run reach three places: the argument that is handed to the tool, the masking of what
the tool prints, and the note that the provider's key was revoked. If no line of the tool holds a
secret, there is nothing to mask. The run then makes the same writes as one without inputs, but for
that note, which hangs on whether an access key is given and not on the key.
-/

namespace Provisioner

namespace Tool

/-- No line that is received from the tool holds one of some secrets. -/
def Execution.FreeOf (e : Execution) (secrets : List String) : Prop :=
  ∀ line ∈ received e.events, ∀ secret ∈ secrets,
    Text.occursIn secret.toList line.toList = false

instance (e : Execution) (secrets : List String) : Decidable (e.FreeOf secrets) :=
  inferInstanceAs (Decidable (∀ line ∈ received e.events, ∀ secret ∈ secrets,
    Text.occursIn secret.toList line.toList = false))

/-- If the tool is started, no line that is received from it holds one of some secrets. -/
def Attempt.FreeOf (a : Attempt) (secrets : List String) : Prop :=
  ∀ e, a.execution = .ok e → e.FreeOf secrets

variable {settings : Settings} {x : Inputs}

theorem mem_received {events : List Event} {line : String} :
    line ∈ received events ↔ .line line ∈ events := by
  unfold received
  rw [List.mem_filterMap]
  constructor
  · rintro ⟨event, hmem, hline⟩
    cases event with
    | line text => exact Option.some.inj hline ▸ hmem
    | silence elapsed => cases hline
  · exact fun hmem => ⟨_, hmem, rfl⟩

/-- What holds no secret is logged as it is, as if there were no secrets. -/
theorem Execution.report_of_free {e : Execution} (h : e.FreeOf x.secrets) :
    e.report settings x = e.report settings .empty := by
  have hlines : ∀ event ∈ e.events,
      eventLine? settings (Redactor.ofSecrets x.secrets) event =
        eventLine? settings (Redactor.ofSecrets Inputs.empty.secrets) event := by
    intro event hevent
    cases event with
    | silence elapsed => rfl
    | line text =>
      simp only [eventLine?]
      rw [Inputs.redact_of_free (h text (mem_received.mpr hevent)),
        Inputs.redact_of_free (x := .empty) (List.forall_mem_nil _)]
  simp only [report]
  rw [List.filterMap_congr hlines]

theorem Attempt.report_of_free {a : Attempt} (h : a.FreeOf x.secrets) :
    a.report settings x = a.report settings .empty := by
  unfold report
  cases a.inventory with
  | error reason => rfl
  | ok path =>
    simp only
    rw [started_congr a settings path x .empty]
    cases hstarted : a.started settings path .empty with
    | error fault => rfl
    | ok e =>
      have hexecution : a.execution = .ok e := (started_eq_ok_iff.mp hstarted).2
      simp only [Execution.report_of_free (h e hexecution)]

end Tool

/-! ## Runs -/

/-- The run without its inputs. -/
def Run.bare (run : Run) : Run := { run with inputs := .empty }

namespace Run

variable {run run' : Run} {equipment : Equipment} {c c' : Circumstances}

theorem report_of_free (h : c.tool.FreeOf run.inputs.secrets) :
    run.report equipment c = run.bare.report equipment c := by
  unfold report
  rw [Tool.Attempt.report_of_free h]
  rfl

/-- At its end a run looks at its inputs for nothing but whether there is an access key. -/
theorem conclude_congr {x x' : Inputs} (h : x.installsAccessKey = x'.installsAccessKey) :
    conclude x = conclude x' := by
  funext result
  cases result with
  | error failure => rfl
  | ok wallet =>
    unfold conclude noteKey
    rw [h]

/-- Two runs that differ in inputs whose secrets are not printed come to the same. -/
theorem report_congr (hbare : run.bare = run'.bare) (hfree : c.tool.FreeOf run.inputs.secrets)
    (hfree' : c.tool.FreeOf run'.inputs.secrets) :
    run.report equipment c = run'.report equipment c := by
  rw [report_of_free hfree, hbare, ← report_of_free hfree']

/-- **Two runs that differ in inputs whose secrets are not printed do the same.** -/
theorem script_congr (hbare : run.bare = run'.bare)
    (hkey : run.inputs.installsAccessKey = run'.inputs.installsAccessKey)
    (hfree : c.tool.FreeOf run.inputs.secrets) (hfree' : c.tool.FreeOf run'.inputs.secrets) :
    run.script equipment c = run'.script equipment c := by
  unfold script
  rw [report_congr hbare hfree hfree', conclude_congr hkey]

theorem status_congr (hbare : run.bare = run'.bare) (hfree : c.tool.FreeOf run.inputs.secrets)
    (hfree' : c.tool.FreeOf run'.inputs.secrets) :
    run.status equipment c = run'.status equipment c := by
  unfold status
  rw [report_congr hbare hfree hfree']

/--
The writes of two such runs are the same up to spans of time, if nothing else in their circumstances
differs, whichever of the writes fail.
-/
theorem writes_congr (hbare : run.bare = run'.bare)
    (hkey : run.inputs.installsAccessKey = run'.inputs.installsAccessKey)
    (hfree : c.tool.FreeOf run.inputs.secrets) (hfree' : c.tool.FreeOf run'.inputs.secrets)
    (htime : c.untimed = c'.untimed) (succeeds succeeds' : Nat → Bool) :
    List.Forall₂ Write.Retimed (Script.Action.writes ((run.script equipment c).trace succeeds))
      (Script.Action.writes ((run'.script equipment c').trace succeeds')) := by
  rw [script_congr hbare hkey hfree hfree', (run'.makes_script equipment c).writes_trace,
    (run'.makes_script equipment c').writes_trace]
  exact retimed_writes htime run' equipment

end Run

end Provisioner
