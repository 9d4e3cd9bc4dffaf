import Provisioner.Machine.Failure

/-!
# The status of a machine

A machine is being provisioned, is ready, or has failed. The last two are *terminal*: only a
reprovision leads out of them. Stored rows and messages name a status by its word.
-/

namespace Provisioner

/-- Where a machine stands. -/
inductive MachineStatus where
  | provisioning
  | ready
  | failed
deriving DecidableEq, Repr

namespace MachineStatus

/-- The word for a status. -/
def word : MachineStatus → String
  | provisioning => "provisioning"
  | ready => "ready"
  | failed => "failed"

/-- The status that a word names. -/
def ofWord? (word : String) : Option MachineStatus :=
  if word = "provisioning" then some provisioning
  else if word = "ready" then some ready
  else if word = "failed" then some failed
  else none

@[simp] theorem ofWord?_word (status : MachineStatus) : ofWord? status.word = some status := by
  cases status <;> rfl

/-- Different statuses have different words. -/
theorem word_injective {a b : MachineStatus} (h : a.word = b.word) : a = b := by
  have := congrArg ofWord? h
  simpa using this

/-- Reads the word of a status. -/
def read (word : String) : Except MachineFailure MachineStatus :=
  match ofWord? word with
  | some status => .ok status
  | none => .error (.invalid s!"Unknown machine status '{word}'")

/-- Whether nothing but a reprovision changes the status. -/
def isTerminal : MachineStatus → Bool
  | provisioning => false
  | ready | failed => true

theorem isTerminal_iff {status : MachineStatus} : status.isTerminal = true ↔ status ≠ provisioning := by
  cases status <;> simp [isTerminal]

/-- Whether a machine of this status may be provisioned again. -/
def mayReprovision (status : MachineStatus) : Except MachineFailure Unit :=
  if status.isTerminal then .ok ()
  else
    .error (.conflict
      s!"Machine is currently {status.word}; wait for the running pipeline to finish")

end MachineStatus

end Provisioner
