import Provisioner.Text.Digits
import Provisioner.Text.Search

/-!
# How the configuration tool ends

A program exits with a code or is ended by a signal. The first 31 signals have names; those in real
time have none, and are given by their distance from the first or the last of them. How a program
ended may also be impossible to learn.
-/

namespace Provisioner.Tool

/-- How a program ends. -/
inductive Exit where
  | code (value : Int)
  /-- A signal ended it, and perhaps its memory was written to a file. -/
  | signal (number : Nat) (dumped : Bool)
  /-- The system does not tell how the program ended. -/
  | lost (reason : String)
deriving DecidableEq, Repr

/-- The names of the signals, by number. -/
def signalNames : List (Nat × String) :=
  [(1, "HUP"), (2, "INT"), (3, "QUIT"), (4, "ILL"), (5, "TRAP"), (6, "ABRT"), (7, "BUS"),
    (8, "FPE"), (9, "KILL"), (10, "USR1"), (11, "SEGV"), (12, "USR2"), (13, "PIPE"), (14, "ALRM"),
    (15, "TERM"), (16, "STKFLT"), (17, "CHLD"), (18, "CONT"), (19, "STOP"), (20, "TSTP"),
    (21, "TTIN"), (22, "TTOU"), (23, "URG"), (24, "XCPU"), (25, "XFSZ"), (26, "VTALRM"),
    (27, "PROF"), (28, "WINCH"), (29, "IO"), (30, "PWR"), (31, "SYS")]

/-- The first signal in real time. -/
def firstRealTime : Nat := 34

/-- The last signal in real time. -/
def lastRealTime : Nat := 64

/-- How far from the first or the last signal in real time another may be. -/
def realTimeReach : Nat := 15

/-- The number of a signal, given in capitals and without `SIG` in front. -/
def namedSignal? (name : List Char) : Option Nat :=
  match Text.afterStart? "RTMIN".toList name, Text.afterStart? "RTMAX".toList name with
  | some [], _ => some firstRealTime
  | some ('+' :: distance), _ => (Text.unsigned? realTimeReach distance).map (firstRealTime + ·)
  | _, some [] => some lastRealTime
  | _, some ('-' :: distance) => (Text.unsigned? realTimeReach distance).map (lastRealTime - ·)
  | _, _ => (signalNames.find? (·.2.toList = name)).map (·.1)

/-- The number of a signal, given by its number or by its name in any case. -/
def signalNumber? (text : String) : Option Nat :=
  let name := text.toList.map Char.toUpper
  let bare := (Text.afterStart? "SIG".toList name).getD name
  (Text.unsigned? lastRealTime name).or (namedSignal? bare)

/-- The signals that do not end a shell: it ignores them, or they are ignored unless handled. -/
def harmlessSignals : List Nat := [0, 3, 17, 18, 23, 28]

namespace Exit

/--
How a shell ends that sends itself a signal and exits with a code if it survives. Its memory is not
written to a file.
-/
def ofShell (signal : Option Nat) (code : Int) : Exit :=
  match signal.filter fun number => !harmlessSignals.contains number with
  | some number => .signal number false
  | none => .code (code % 256)

/-- Whether the program succeeded. -/
def isSuccess : Exit → Bool
  | code value => value == 0
  | signal _ _ | lost _ => false

/-- The exit status, if the program had one. -/
def code? : Exit → Option Int
  | code value => some value
  | signal _ _ | lost _ => none

/-- How the end of a program is shown. -/
def text : Exit → String
  | code value => s!"exit status: {value}"
  | signal number dumped =>
    let name :=
      match signalNames.lookup number with
      | some name => s!" (SIG{name})"
      | none => ""
    let dump := if dumped then " (core dumped)" else ""
    s!"signal: {number}" ++ name ++ dump
  | lost reason => reason

end Exit

end Provisioner.Tool
