import Provisioner.Text.Search

/-!
# Probing whether a machine can be reached

A machine is probed by connecting to its management port, again and again until a connection is
accepted or the attempts are used up. There is a pause between two attempts, and a new machine is
given some time before the first one.

`ProbeReport` says what a probe shows, how many connections it tried and how long it took. The
outcome of each attempt is given from outside, by its number from 1 on.
-/

namespace Provisioner

/-- The management port. -/
def sshPort : Nat := 22

/-- Which check a run begins with. -/
inductive RunMode where
  /-- The machine is new and has to boot first. -/
  | initial
  /-- The machine should be up already. -/
  | reprovision
deriving DecidableEq, Repr

/-- The timing of a probe, in milliseconds. Finer spans of time cannot be given. -/
structure ProbePolicy where
  /-- How long a new machine is left alone. -/
  warmup : Nat
  /-- How long to wait between two attempts. -/
  interval : Nat
  attempts : Nat
  /-- How long to wait for an answer to one attempt. -/
  connectTimeout : Nat
  port : Nat
deriving DecidableEq, Repr

/-- The policy for a new machine. -/
def ProbePolicy.full : ProbePolicy := ⟨60000, 5000, 60, 5000, sshPort⟩

/-- The policy for a machine that should be up already. -/
def ProbePolicy.quick : ProbePolicy := ⟨0, 5000, 5, 10000, sshPort⟩

/-- The policies of a prober. -/
structure Prober where
  full : ProbePolicy
  quick : ProbePolicy
deriving DecidableEq, Repr

namespace Prober

/-- The prober that is used unless another one is set up. -/
def standard : Prober := ⟨.full, .quick⟩

/-- The policy for a mode. -/
def policy (prober : Prober) : RunMode → ProbePolicy
  | .initial => prober.full
  | .reprovision => prober.quick

end Prober

/-- How an attempt to connect ends. -/
inductive Connect where
  | accepted
  /-- It fails at once. -/
  | failed (reason : String)
  /-- There is no answer in time. -/
  | unanswered
deriving DecidableEq, Repr

/-- What a probe comes to. -/
structure ProbeReport where
  lines : List String
  /-- How many connections were tried. -/
  connects : Nat
  /-- How long the probe took, in milliseconds. -/
  waited : Nat
  /-- Whether a connection was accepted. -/
  reached : Bool
deriving DecidableEq, Repr

namespace ProbePolicy

/-- The address and port that are shown; an address with colons is put into brackets. -/
def target (policy : ProbePolicy) (address : String) : String :=
  if address.toList.contains ':' then s!"[{address}]:{policy.port}" else s!"{address}:{policy.port}"

/-- Why an attempt failed, unless it was accepted. -/
def failure? (policy : ProbePolicy) : Connect → Option String
  | .accepted => none
  | .failed reason => some reason
  | .unanswered => some s!"timed out after {policy.connectTimeout / 1000}s"

/-- How long an attempt takes. Only one that is not answered takes time. -/
def cost (policy : ProbePolicy) : Connect → Nat
  | .unanswered => policy.connectTimeout
  | _ => 0

/-- The line for a failed attempt. -/
def failedLine (policy : ProbePolicy) (attempt : Nat) (reason : String) : String :=
  s!"SSH attempt {attempt}/{policy.attempts} failed: {reason}"

/-- The line for the attempt that was accepted. -/
def readyLine (policy : ProbePolicy) (attempt : Nat) : String :=
  s!"SSH is ready (attempt {attempt}/{policy.attempts})"

/-- The line after the last attempt. -/
def gaveUpLine (policy : ProbePolicy) : String :=
  s!"SSH not ready after {policy.attempts} attempts, giving up"

/-- The attempts that are left after `made` of them. -/
def attemptsFrom (policy : ProbePolicy) (outcome : Nat → Connect) (made : Nat) : Nat → ProbeReport
  | 0 => ⟨[policy.gaveUpLine], made, 0, false⟩
  | left + 1 =>
    let attempt := made + 1
    match policy.failure? (outcome attempt) with
    | none => ⟨[policy.readyLine attempt], attempt, 0, true⟩
    | some reason =>
      let rest := policy.attemptsFrom outcome attempt left
      let pause := if left = 0 then 0 else policy.interval
      { rest with
        lines := policy.failedLine attempt reason :: rest.lines
        waited := policy.cost (outcome attempt) + pause + rest.waited }

/-- The check of a machine that should be up already. -/
def check (policy : ProbePolicy) (address : String) (outcome : Nat → Connect) : ProbeReport :=
  let report := policy.attemptsFrom outcome 0 policy.attempts
  { report with lines := s!"Checking SSH on {policy.target address}..." :: report.lines }

/-- The check of a new machine. -/
def bootAndCheck (policy : ProbePolicy) (address : String) (outcome : Nat → Connect) :
    ProbeReport :=
  let report := policy.check address outcome
  if policy.warmup = 0 then report
  else
    { report with
      lines := s!"Waiting {policy.warmup / 1000}s for server to boot..." :: report.lines
      waited := policy.warmup + report.waited }

end ProbePolicy

/-- The check that a run of some mode begins with. -/
def Prober.probe (prober : Prober) (mode : RunMode) (address : String)
    (outcome : Nat → Connect) : ProbeReport :=
  match mode with
  | .initial => prober.full.bootAndCheck address outcome
  | .reprovision => prober.quick.check address outcome

end Provisioner
