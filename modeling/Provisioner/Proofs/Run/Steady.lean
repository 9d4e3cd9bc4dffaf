import Provisioner.Proofs.Run.Trace
import Provisioner.Proofs.Tool.Timing

/-!
# Failures of the store never steer a run

What a run asks of the store hangs on its circumstances alone. If two runs of one kind meet the same
circumstances, and whatever writes fail in either of them, they make the same writes and end with the
same status; only the spans of time in their lines may differ (`Run.steady`).

A reprovision is another matter: if the old log cannot be cleared no run begins at all.
-/

namespace Provisioner

/-- The circumstances without how long things took. -/
def Circumstances.untimed (c : Circumstances) : Circumstances := { c with tool := c.tool.untimed }

/-- Two writes are the same up to a span of time in a line. -/
inductive Write.Retimed : Write → Write → Prop where
  | same (call : Write) : Retimed call call
  | append {line line' : String} (h : Tool.Retimed line line') :
      Retimed (.append line) (.append line')

theorem Write.forall₂_retimed_refl (writes : List Write) :
    List.Forall₂ Write.Retimed writes writes :=
  List.forall₂_same.mpr fun call _ => .same call

/-- The writes for a line are as many for any span of time in it. -/
theorem Script.retimed_lineWrites {line line' : String} (h : Tool.Retimed line line') :
    List.Forall₂ Write.Retimed (lineWrites line) (lineWrites line') := by
  unfold lineWrites
  rw [h.tellsKeyRemoved_eq]
  exact .cons (.append h) (Write.forall₂_retimed_refl _)

namespace Run

variable {c c' : Circumstances}

theorem retimed_report (h : c.untimed = c'.untimed) (run : Run) (equipment : Equipment) :
    List.Forall₂ Tool.Retimed (run.report equipment c).lines (run.report equipment c').lines ∧
      (run.report equipment c).result = (run.report equipment c').result := by
  have hconnect : c.untimed.connect = c'.untimed.connect := congrArg Circumstances.connect h
  replace hconnect : c.connect = c'.connect := hconnect
  have htool : c.tool.untimed = c'.tool.untimed := congrArg Circumstances.tool h
  by_cases hreached : (equipment.prober.probe run.mode run.address c.connect).reached = true
  · rw [report_of_reached hreached]
    rw [hconnect] at hreached ⊢
    rw [report_of_reached hreached]
    obtain ⟨hlines, hresult⟩ := Tool.Attempt.retimed_report htool equipment.tool run.inputs
    exact ⟨List.rel_append (Tool.forall₂_retimed_refl _) hlines, hresult⟩
  · rw [report_of_unreached hreached]
    rw [hconnect] at hreached ⊢
    rw [report_of_unreached hreached]
    exact ⟨Tool.forall₂_retimed_refl _, rfl⟩

theorem status_of_untimed (h : c.untimed = c'.untimed) (run : Run) (equipment : Equipment) :
    run.status equipment c = run.status equipment c' := by
  unfold status
  rw [(retimed_report h run equipment).2]

theorem retimed_writes (h : c.untimed = c'.untimed) (run : Run) (equipment : Equipment) :
    List.Forall₂ Write.Retimed (run.writes equipment c) (run.writes equipment c') := by
  obtain ⟨hlines, hresult⟩ := retimed_report h run equipment
  unfold writes notes
  rw [hresult, status_of_untimed h run equipment]
  refine List.rel_append (List.rel_append ?_ (Write.forall₂_retimed_refl _))
    (Write.forall₂_retimed_refl _)
  exact List.rel_flatMap hlines fun _ _ => Script.retimed_lineWrites

/-- If the old log cannot be cleared nothing more happens, and else the run begins. -/
theorem trace_restart (run : Run) (equipment : Equipment) (c : Circumstances)
    (succeeds : Nat → Bool) :
    (run.restart equipment c).trace succeeds =
      if succeeds 0 then .write .clearLog true :: .notify ::
        (run.script equipment c).trace fun n => succeeds (n + 1)
      else [.write .clearLog false] := by
  unfold restart
  rw [Script.trace]
  cases succeeds 0 <;> rfl

/--
**Failures of the store never steer a run.** Two patterns of failing writes leave the same run with
the same writes. Under circumstances that differ only in how long things took, the writes are the
same up to the spans of time in lines, and the status is the same. The beginning of a reprovision is
steered: if the log cannot be cleared, that is the last of it.
-/
theorem steady (h : c.untimed = c'.untimed) (run : Run) (equipment : Equipment)
    (succeeds succeeds' : Nat → Bool) :
    Script.Action.writes ((run.script equipment c).trace succeeds) =
      Script.Action.writes ((run.script equipment c).trace succeeds') ∧
    List.Forall₂ Write.Retimed (Script.Action.writes ((run.script equipment c).trace succeeds))
      (Script.Action.writes ((run.script equipment c').trace succeeds')) ∧
    run.status equipment c = run.status equipment c' ∧
    (succeeds 0 = false → (run.restart equipment c).trace succeeds = [.write .clearLog false]) ∧
    (succeeds 0 = true → (run.restart equipment c).trace succeeds =
      .write .clearLog true :: .notify ::
        (run.script equipment c).trace fun n => succeeds (n + 1)) := by
  have hwrites := (run.makes_script equipment c).writes_trace
  refine ⟨?_, ?_, status_of_untimed h run equipment, ?_, ?_⟩
  · rw [hwrites, hwrites]
  · rw [hwrites, (run.makes_script equipment c').writes_trace]
    exact retimed_writes h run equipment
  · intro hcleared
    rw [trace_restart, hcleared]
    rfl
  · intro hcleared
    rw [trace_restart, hcleared]
    rfl

end Run

/-! ## A run that takes its time -/

/--
The machine answers, and the tool is silent for some time, tells that the key was revoked, and is
killed.
-/
def Circumstances.taking (seconds : Nat) : Circumstances :=
  ⟨fun _ => .accepted, ⟨.ok "inventory.ini",
    .ok ⟨[Text.Utf8.encode "Hetzner provisioning key removed\n".toList], [], [.silence seconds],
      .signal 9 false, seconds⟩⟩⟩

theorem Run.steady_taking :
    (Circumstances.taking 40).untimed = (Circumstances.taking 95).untimed ∧
    withKey.writes .plain (.taking 40) ≠ withKey.writes .plain (.taking 95) ∧
    List.Forall₂ Write.Retimed
      (Script.Action.writes ((withKey.script .plain (.taking 40)).trace fun _ => true))
      (Script.Action.writes ((withKey.script .plain (.taking 95)).trace fun n => n % 2 == 0)) ∧
    withKey.status .plain (.taking 40) = withKey.status .plain (.taking 95) ∧
    (withKey.restart .plain (.taking 40)).trace (fun _ => false) = [.write .clearLog false] := by
  have hsame : (Circumstances.taking 40).untimed = (Circumstances.taking 95).untimed := rfl
  obtain ⟨-, hwrites, hstatus, -, -⟩ :=
    Run.steady hsame withKey .plain (fun _ => true) fun n => n % 2 == 0
  obtain ⟨-, -, -, hrestart, -⟩ :=
    Run.steady hsame withKey .plain (fun _ => false) fun _ => true
  exact ⟨hsame, by decide +kernel, hwrites, hstatus, hrestart rfl⟩

end Provisioner
