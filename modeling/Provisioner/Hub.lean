import Provisioner.Machine.Failure

/-!
# Waking those who wait for a machine

The hub keeps one *generation* for each machine that somebody has waited for. A handle belongs to
the generation it was taken from and is woken when that is signalled. Notifying signals the
present generation and puts a fresh one in its place; removing signals it and puts none. The
signal carries nothing: whoever is woken reads the store again.
-/

namespace Provisioner

/-- A handle on one generation of one machine. -/
structure Handle where
  generation : Nat
deriving DecidableEq, Repr

/-- The present generation of each machine, and which generations were signalled. -/
structure Hub where
  channels : List (MachineId × Nat)
  signalled : List Nat
  /-- The number of the next new generation. -/
  next : Nat
deriving DecidableEq, Repr

namespace Hub

/-- A hub that nobody has waited on. -/
def empty : Hub := ⟨[], [], 0⟩

/-- The present generation of a machine. -/
def generation? (hub : Hub) (id : MachineId) : Option Nat := hub.channels.lookup id

/-- Whether a handle was woken. -/
def isSignalled (hub : Hub) (handle : Handle) : Bool := hub.signalled.contains handle.generation

/-- The channels without that of a machine. -/
def without (hub : Hub) (id : MachineId) : List (MachineId × Nat) :=
  hub.channels.filter (·.1 ≠ id)

/-- Takes a handle that the next notification of a machine wakes. -/
def wait (hub : Hub) (id : MachineId) : Handle × Hub :=
  match hub.generation? id with
  | some generation => (⟨generation⟩, hub)
  | none =>
    (⟨hub.next⟩, { hub with channels := (id, hub.next) :: hub.channels, next := hub.next + 1 })

/-- Wakes all handles taken for a machine. Nothing happens if nobody has waited for it. -/
def notify (hub : Hub) (id : MachineId) : Hub :=
  match hub.generation? id with
  | some generation =>
    { channels := (id, hub.next) :: hub.without id
      signalled := generation :: hub.signalled
      next := hub.next + 1 }
  | none => hub

/-- Wakes all handles taken for a machine and forgets it. -/
def remove (hub : Hub) (id : MachineId) : Hub :=
  match hub.generation? id with
  | some generation =>
    { hub with channels := hub.without id, signalled := generation :: hub.signalled }
  | none => hub

/-- How many machines have a generation. -/
def size (hub : Hub) : Nat := hub.channels.length

end Hub

end Provisioner
