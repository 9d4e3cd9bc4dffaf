import Provisioner.Probe
import Provisioner.Run.Script
import Provisioner.Tool.Report

/-!
# Provisioning runs

A run probes a machine, runs the configuration tool against it and notes what came of it. What
happens outside (the outcomes of the attempts to connect, the behaviour of the tool) is given as
`Circumstances`; they and the run determine its lines, its end and so its script.
-/

namespace Provisioner

/-- What a run is to do. -/
structure Run where
  machine : MachineId
  address : String
  inputs : Inputs
  mode : RunMode

/-- How the service is set up for its runs. -/
structure Equipment where
  prober : Prober
  tool : Tool.Settings

/-- What happens outside during a run. -/
structure Circumstances where
  connect : Nat → Connect
  tool : Tool.Attempt

/-- What a run comes to. -/
structure RunReport where
  /-- The lines of the probe and of the tool, with the opening line. -/
  lines : List String
  /-- The address of the wallet, empty if there is none. -/
  result : Except RunFailure String

namespace RunMode

/-- The line that a run of some mode opens with. -/
def openingLine : RunMode → String
  | initial => "Waiting for SSH to become available..."
  | reprovision => "Re-provisioning server..."

end RunMode

namespace Run

/-- The result of a probe that did not reach the machine. -/
def unreachable (run : Run) (equipment : Equipment) : RunFailure :=
  let policy := equipment.prober.policy run.mode
  .unreachable (policy.target run.address) policy.attempts

/-- What a run comes to, up to the notes that it makes at its end. -/
def report (run : Run) (equipment : Equipment) (c : Circumstances) : RunReport :=
  let probe := equipment.prober.probe run.mode run.address c.connect
  let lines := run.mode.openingLine :: probe.lines
  if probe.reached then
    let tool := c.tool.report equipment.tool run.inputs
    ⟨lines ++ tool.lines, tool.result⟩
  else ⟨lines, .error (run.unreachable equipment)⟩

/-- The status that a run ends with. -/
def status (run : Run) (equipment : Equipment) (c : Circumstances) : MachineStatus :=
  match (run.report equipment c).result with
  | .ok _ => .ready
  | .error _ => .failed

/-- Notes the status that a run ends with and wakes the viewers. -/
def finish (status : MachineStatus) : Script :=
  .write (.setStatus status) fun _ => .notify .done

/-- Notes that the provider's own key was revoked, if the run installed another one. -/
def noteKey (inputs : Inputs) (next : Script) : Script :=
  if inputs.installsAccessKey then .write (.setCredentialRemoved true) fun _ => next else next

/-- The line that gives the address of the wallet. -/
def walletLine (wallet : String) : String := s!"Wallet address: {wallet}"

/-- Logs and notes the address of the wallet, if there is one. -/
def noteWallet (wallet : String) (next : Script) : Script :=
  if wallet.isEmpty then next
  else Script.logLine (walletLine wallet) (.write (.setExtractedOutput wallet) fun _ => next)

/-- The line that gives the reason of a failure. -/
def failureLine (failure : RunFailure) : String := s!"Provisioning failed: {failure.message}"

/-- What a run does after its probe and the tool. -/
def conclude (inputs : Inputs) : Except RunFailure String → Script
  | .ok wallet => noteWallet wallet (noteKey inputs (finish .ready))
  | .error failure => Script.logLine (failureLine failure) (finish .failed)

/-- What a run does. -/
def script (run : Run) (equipment : Equipment) (c : Circumstances) : Script :=
  let report := run.report equipment c
  Script.logLines report.lines (conclude run.inputs report.result)

/--
What happens once a reprovision was accepted: the old log is cleared, the viewers are woken, and
the run begins. If the log cannot be cleared, nothing more happens.
-/
def restart (run : Run) (equipment : Equipment) (c : Circumstances) : Script :=
  .write .clearLog fun cleared =>
    if cleared then .notify (run.script equipment c) else .done

end Run

end Provisioner
