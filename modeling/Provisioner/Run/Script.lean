import Provisioner.Store.Call
import Provisioner.Text.Search

/-!
# What a run does to the world

A run is seen from outside as a *script*: writes to the store for one machine and notifications of
its viewers, in an order that may hang on which of the writes succeeded. `Script.step` performs one
of them, so the steps of several scripts can be mixed in any way.
-/

namespace Provisioner

/-- The writes and notifications still to be made for one machine. -/
inductive Script where
  | done
  /-- A write, and what follows if it succeeds (`true`) or fails. -/
  | write (w : Write) (next : Bool → Script)
  /-- The viewers are woken. -/
  | notify (next : Script)

namespace Script

/-- One thing that a script did. -/
inductive Action where
  | write (w : Write) (succeeded : Bool)
  | notify
deriving DecidableEq, Repr

/-- The greatest number of things that a script does. -/
def length : Script → Nat
  | done => 0
  | write _ next => max (next true).length (next false).length + 1
  | notify next => next.length + 1

/-- After a write fewer things are left to do. -/
theorem length_next_lt (w : Write) (next : Bool → Script) (succeeded : Bool) :
    (next succeeded).length < (write w next).length := by
  cases succeeded <;> simp only [length] <;> omega

/-- What a script does if its n-th write, from 0 on, succeeds just when `succeeds n`. -/
def trace (succeeds : Nat → Bool) : Script → List Action
  | done => []
  | write w next => .write w (succeeds 0) :: (next (succeeds 0)).trace fun n => succeeds (n + 1)
  | notify next => .notify :: next.trace succeeds

/-- Carries out a script on a state: `perform` makes a write and says whether it succeeded. -/
def execute {σ : Type} (perform : Write → σ → Bool × σ) (wake : σ → σ) : Script → σ → σ
  | done, s => s
  | write w next, s => ((next (perform w s).1).execute perform wake) (perform w s).2
  | notify next, s => next.execute perform wake (wake s)

/-- The writes among some actions. -/
def Action.writes (actions : List Action) : List Write :=
  actions.filterMap fun
    | .write w _ => some w
    | .notify => none

/-- A line that holds this text says that the provider's own key was revoked. -/
def keyRemovedMarker : String := "Hetzner provisioning key removed"

/-- Whether a line says that the provider's own key was revoked. -/
def tellsKeyRemoved (line : String) : Bool := Text.occursIn keyRemovedMarker.toList line.toList

/--
Logs a line and wakes the viewers, whether or not the line could be stored. A line that says that
the provider's own key was revoked is followed by a note of that, and a further notification if
the note could be stored.
-/
def logLine (line : String) (next : Script) : Script :=
  .write (.append line) fun _ => .notify <|
    if tellsKeyRemoved line then
      .write (.setCredentialRemoved true) fun stored => if stored then .notify next else next
    else next

/-- Logs some lines. -/
def logLines (lines : List String) (next : Script) : Script := lines.foldr logLine next

@[simp] theorem logLines_nil (next : Script) : logLines [] next = next := rfl

@[simp] theorem logLines_cons (line : String) (lines : List String) (next : Script) :
    logLines (line :: lines) next = logLine line (logLines lines next) := rfl

end Script

end Provisioner
