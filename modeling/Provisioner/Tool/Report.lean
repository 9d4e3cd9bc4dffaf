import Provisioner.Log.Marker
import Provisioner.Log.Redactor
import Provisioner.Log.Transcript
import Provisioner.Run.Failure
import Provisioner.Tool.Exit
import Provisioner.Tool.Invocation
import Provisioner.Tool.Streams

/-!
# What a run of the configuration tool comes to

The tool is started with an inventory and everything it prints is read to the end. The lines for
the log are masked; the transcript, from which the address of the wallet is taken, is not.
-/

namespace Provisioner

/-- A span of so many seconds, such as `42s` or `3m07s`. -/
def elapsedText (seconds : Nat) : String :=
  if seconds < 60 then s!"{seconds}s"
  else
    let rest := seconds % 60
    let padding := if rest < 10 then "0" else ""
    s!"{seconds / 60}m{padding}{rest}s"

namespace Tool

/-- How the tool behaves once it is started. -/
structure Execution where
  /-- What the reads of its two streams return. -/
  out : List (List UInt8)
  err : List (List UInt8)
  /-- The order in which reads, hand-overs and receipts happen. -/
  turns : List Turn
  exit : Exit
  /-- How many seconds it ran. -/
  elapsed : Nat

/-- What happens when the tool is to be run. -/
structure Attempt where
  /-- The path of the inventory, or why it could not be written. -/
  inventory : Except String String
  /-- How the tool behaves, or why it could not be started. -/
  execution : Except LaunchFault Execution

/-- What a run of the tool comes to. -/
structure Report where
  /-- The lines for the log. -/
  lines : List String
  /-- The address of the wallet, empty if the tool printed none. -/
  result : Except RunFailure String

namespace Execution

/-- What was received from the tool. -/
def events (e : Execution) : List Event := Streams.events e.out e.err e.turns

end Execution

/-- The lines among some events. -/
def received (events : List Event) : List String :=
  events.filterMap fun
    | .line text => some text
    | .silence _ => none

/-- The line for a silence. -/
def silenceLine (settings : Settings) (elapsed : Nat) : String :=
  s!"No output for {settings.stallThreshold / 1000}s (elapsed {elapsedText elapsed}), still running..."

/-- The line that is logged for an event; an empty line is not logged. -/
def eventLine? (settings : Settings) (redactor : Redactor) : Event → Option String
  | .line text => if text.isEmpty then none else some (redactor.redact text)
  | .silence elapsed => some (silenceLine settings elapsed)

/-- The line about the end of the tool. -/
def endLine (e : Execution) : String :=
  let time := elapsedText e.elapsed
  if e.exit.isSuccess then s!"Provisioning completed successfully in {time}"
  else s!"Provisioning FAILED after {time}: {e.exit.text}"

/-- The last lines of a run of the tool. Nothing is logged of an end that could not be learnt. -/
def endLines (e : Execution) : List String :=
  match e.exit with
  | .lost _ => []
  | _ => [endLine e]

/-- What is made of the transcript at the end. -/
def conclude (e : Execution) (transcript : String) : Except RunFailure String :=
  match e.exit with
  | .lost reason => .error (.launch reason)
  | exit =>
    if exit.isSuccess then .ok (Marker.extract Marker.walletAddress transcript)
    else .error (.toolFailed exit.code? transcript)

/-- What the tool comes to once it was started. -/
def Execution.report (e : Execution) (settings : Settings) (inputs : Inputs) : Report :=
  let redactor := Redactor.ofSecrets inputs.secrets
  let events := e.events
  { lines := events.filterMap (eventLine? settings redactor) ++ endLines e
    result := conclude e (Transcript.ofLines (received events)) }

/-- How the tool behaves, or why it could not be started with some inputs. -/
def Attempt.started (attempt : Attempt) (settings : Settings) (path : String) (inputs : Inputs) :
    Except LaunchFault Execution :=
  match (invocation settings path inputs).fault? with
  | some fault => .error fault
  | none => attempt.execution

/-- What a run of the tool comes to. -/
def Attempt.report (attempt : Attempt) (settings : Settings) (inputs : Inputs) : Report :=
  let beginning := "Starting configuration run..."
  match attempt.inventory with
  | .error reason => ⟨[beginning], .error (.inventory reason)⟩
  | .ok path =>
    let running := s!"Running {settings.program} {settings.playbook}"
    match attempt.started settings path inputs with
    | .error fault => ⟨[beginning, running], .error (.launch fault.message)⟩
    | .ok execution =>
      let report := execution.report settings inputs
      { report with lines := beginning :: running :: report.lines }

end Tool

end Provisioner
