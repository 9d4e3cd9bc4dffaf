import Provisioner.Machine.Status

/-!
# Who may write for a machine

Nothing in memory locks a machine: whether a reprovision is accepted hangs on the status in its row
alone. A *ledger* says of one machine what is in its row and how many there are who act for it:
requests that are about to record it, requests that are about to start its run (*triggers*), and
runs that have not written their status yet (*open* runs).

`Ledger.Change` is all that can happen to a ledger. Along all changes there is at most one who acts,
and its row shows no terminal status meanwhile (`Ledger.Sound`). If nobody who acts is lost, a row
that shows the machine as being provisioned has somebody who acts for it (`Ledger.Cared`).
-/

namespace Provisioner

/-- What is known of one machine and of those who act for it. -/
structure Ledger where
  /-- The word of the status in the row, if there is a row. -/
  status : Option String
  /-- How many requests are about to record the machine. -/
  recordings : Nat
  /-- How many requests are about to start its run. -/
  triggers : Nat
  /-- How many runs have not written their status yet. -/
  openRuns : Nat
  /-- Whether the provider has handed out the id of the machine. -/
  issued : Bool

namespace Ledger

/--
All that can happen to a ledger. If `calm`, no statement fails and no request is dropped, so that
nobody who acts for the machine is lost.
-/
inductive Change (calm : Prop) (l l' : Ledger) : Prop where
  | same (h : l' = l)
  /-- The provider makes the machine. -/
  | made (hnew : l.issued = false)
      (h : l' = { l with recordings := l.recordings + 1, issued := true })
  /-- The machine is not recorded after all. -/
  | unrecorded (h : l' = { l with recordings := l.recordings - 1 })
  /-- The machine is recorded. -/
  | recorded (hone : 0 < l.recordings)
      (h : l' = { l with
        status := some MachineStatus.provisioning.word
        recordings := l.recordings - 1
        triggers := l.triggers + 1 })
  /-- A machine in a terminal status is set back. -/
  | restarted {status : MachineStatus} (hterminal : status.isTerminal = true)
      (hstatus : l.status = some status.word)
      (h : l' = { l with
        status := some MachineStatus.provisioning.word
        triggers := l.triggers + 1 })
  /-- A run starts. -/
  | started (hone : 0 < l.triggers)
      (h : l' = { l with triggers := l.triggers - 1, openRuns := l.openRuns + 1 })
  /-- A request ends without a run, and nothing is written. -/
  | dropped (hcalm : ¬calm) (h : l' = { l with triggers := l.triggers - 1 })
  /-- A request ends without a run, and the machine is marked as failed. -/
  | repaired (hone : 0 < l.triggers)
      (h : l' = { l with
        status := l.status.map fun _ => MachineStatus.failed.word
        triggers := l.triggers - 1 })
  /-- A run ends without its status. -/
  | stopped (hcalm : ¬calm) (h : l' = { l with openRuns := l.openRuns - 1 })
  /-- A run writes its status. -/
  | concluded {status : MachineStatus} (hterminal : status.isTerminal = true)
      (hone : 0 < l.openRuns)
      (h : l' = { l with
        status := l.status.map fun _ => status.word
        openRuns := l.openRuns - 1 })
  | erased (h : l' = { l with status := none })

/-- At most one acts for the machine, and its row shows no terminal status meanwhile. -/
structure Sound (l : Ledger) : Prop where
  once : l.recordings + l.triggers + l.openRuns ≤ 1
  unrecorded : 0 < l.recordings → l.status = none
  reserved : 0 < l.triggers + l.openRuns →
    l.status = none ∨ l.status = some MachineStatus.provisioning.word
  issued : 0 < l.recordings + l.triggers + l.openRuns ∨ l.status ≠ none → l.issued = true

/-- Somebody acts for a machine whose row shows it as being provisioned. -/
def Cared (l : Ledger) : Prop :=
  l.status = some MachineStatus.provisioning.word → 0 < l.triggers + l.openRuns

variable {calm : Prop} {l l' : Ledger}

/-- A row in a terminal status has nobody who acts for it. -/
theorem Sound.free_of_terminal (h : l.Sound) {status : MachineStatus}
    (hterminal : status.isTerminal = true) (hstatus : l.status = some status.word) :
    l.recordings = 0 ∧ l.triggers + l.openRuns = 0 := by
  constructor
  · refine Nat.eq_zero_of_not_pos ?_
    intro hpos
    have hnone := h.unrecorded hpos
    rw [hstatus] at hnone
    cases hnone
  · refine Nat.eq_zero_of_not_pos ?_
    intro hpos
    rcases h.reserved hpos with hnone | hprovisioning
    · rw [hstatus] at hnone
      cases hnone
    · rw [hstatus] at hprovisioning
      exact MachineStatus.isTerminal_iff.mp hterminal
        (MachineStatus.word_injective (Option.some.inj hprovisioning))

/-- **Whatever happens, at most one acts for a machine.** -/
theorem Sound.change (h : l.Sound) (hchange : Change calm l l') : l'.Sound := by
  obtain ⟨honce, hunrecorded, hreserved, hissued⟩ := id h
  cases hchange with
  | same heq =>
    rw [heq]
    exact h
  | made hnew heq =>
    have hfree : ¬(0 < l.recordings + l.triggers + l.openRuns ∨ l.status ≠ none) := by
      intro hbusy
      rw [hissued hbusy] at hnew
      cases hnew
    obtain ⟨hcount, hstatus⟩ := not_or.mp hfree
    have hnone : l.status = none := Decidable.not_not.mp hstatus
    subst heq
    refine ⟨?_, fun _ => hnone, fun _ => Or.inl hnone, fun _ => rfl⟩
    show l.recordings + 1 + l.triggers + l.openRuns ≤ 1
    omega
  | unrecorded heq =>
    subst heq
    refine ⟨?_, ?_, hreserved, ?_⟩
    · show l.recordings - 1 + l.triggers + l.openRuns ≤ 1
      omega
    · intro hpos
      replace hpos : 0 < l.recordings - 1 := hpos
      exact hunrecorded (by omega)
    · rintro (hpos | hstatus)
      · replace hpos : 0 < l.recordings - 1 + l.triggers + l.openRuns := hpos
        exact hissued (Or.inl (by omega))
      · exact hissued (Or.inr hstatus)
  | recorded hone heq =>
    subst heq
    refine ⟨?_, ?_, fun _ => Or.inr rfl, fun _ => hissued (Or.inl (by omega))⟩
    · show l.recordings - 1 + (l.triggers + 1) + l.openRuns ≤ 1
      omega
    · intro hpos
      replace hpos : 0 < l.recordings - 1 := hpos
      omega
  | restarted hterminal hstatus heq =>
    obtain ⟨hrecordings, hfree⟩ := h.free_of_terminal hterminal hstatus
    subst heq
    refine ⟨?_, ?_, fun _ => Or.inr rfl, fun _ => hissued (Or.inr ?_)⟩
    · show l.recordings + (l.triggers + 1) + l.openRuns ≤ 1
      omega
    · intro hpos
      replace hpos : 0 < l.recordings := hpos
      omega
    · rw [hstatus]
      exact nofun
  | started hone heq =>
    subst heq
    refine ⟨?_, hunrecorded, fun _ => hreserved (by omega), fun _ => hissued (Or.inl (by omega))⟩
    show l.recordings + (l.triggers - 1) + (l.openRuns + 1) ≤ 1
    omega
  | dropped _ heq =>
    subst heq
    refine ⟨?_, hunrecorded, ?_, ?_⟩
    · show l.recordings + (l.triggers - 1) + l.openRuns ≤ 1
      omega
    · intro hpos
      replace hpos : 0 < l.triggers - 1 + l.openRuns := hpos
      exact hreserved (by omega)
    · rintro (hpos | hstatus)
      · replace hpos : 0 < l.recordings + (l.triggers - 1) + l.openRuns := hpos
        exact hissued (Or.inl (by omega))
      · exact hissued (Or.inr hstatus)
  | repaired hone heq =>
    subst heq
    refine ⟨?_, ?_, ?_, fun _ => hissued (Or.inl (by omega))⟩
    · show l.recordings + (l.triggers - 1) + l.openRuns ≤ 1
      omega
    · intro hpos
      replace hpos : 0 < l.recordings := hpos
      omega
    · intro hpos
      replace hpos : 0 < l.triggers - 1 + l.openRuns := hpos
      omega
  | stopped _ heq =>
    subst heq
    refine ⟨?_, hunrecorded, ?_, ?_⟩
    · show l.recordings + l.triggers + (l.openRuns - 1) ≤ 1
      omega
    · intro hpos
      replace hpos : 0 < l.triggers + (l.openRuns - 1) := hpos
      exact hreserved (by omega)
    · rintro (hpos | hstatus)
      · replace hpos : 0 < l.recordings + l.triggers + (l.openRuns - 1) := hpos
        exact hissued (Or.inl (by omega))
      · exact hissued (Or.inr hstatus)
  | concluded _ hone heq =>
    subst heq
    refine ⟨?_, ?_, ?_, fun _ => hissued (Or.inl (by omega))⟩
    · show l.recordings + l.triggers + (l.openRuns - 1) ≤ 1
      omega
    · intro hpos
      replace hpos : 0 < l.recordings := hpos
      omega
    · intro hpos
      replace hpos : 0 < l.triggers + (l.openRuns - 1) := hpos
      omega
  | erased heq =>
    subst heq
    refine ⟨honce, fun _ => rfl, fun _ => Or.inl rfl, ?_⟩
    rintro (hpos | hstatus)
    · exact hissued (Or.inl hpos)
    · exact absurd rfl hstatus

/-- A row that was written a terminal status does not show the machine as being provisioned. -/
theorem ne_provisioning_of_terminal {status : MachineStatus} (hterminal : status.isTerminal = true)
    (old : Option String) :
    (old.map fun _ => status.word) ≠ some MachineStatus.provisioning.word := by
  intro h
  obtain ⟨_, _, hword⟩ := Option.map_eq_some_iff.mp h
  exact MachineStatus.isTerminal_iff.mp hterminal (MachineStatus.word_injective hword)

/-- **If nobody is lost, a machine that is being provisioned has somebody who acts for it.** -/
theorem Cared.change (h : l.Cared) (hchange : Change True l l') : l'.Cared := by
  cases hchange with
  | same heq =>
    rw [heq]
    exact h
  | made _ heq =>
    subst heq
    exact h
  | unrecorded heq =>
    subst heq
    exact h
  | recorded _ heq =>
    subst heq
    intro _
    show 0 < l.triggers + 1 + l.openRuns
    omega
  | restarted _ _ heq =>
    subst heq
    intro _
    show 0 < l.triggers + 1 + l.openRuns
    omega
  | started _ heq =>
    subst heq
    intro _
    show 0 < l.triggers - 1 + (l.openRuns + 1)
    omega
  | dropped hcalm _ => exact absurd trivial hcalm
  | repaired _ heq =>
    subst heq
    intro hstatus
    have hfailed : MachineStatus.failed.isTerminal = true := rfl
    exact absurd hstatus (ne_provisioning_of_terminal hfailed l.status)
  | stopped hcalm _ => exact absurd trivial hcalm
  | concluded hterminal _ heq =>
    subst heq
    intro hstatus
    exact absurd hstatus (ne_provisioning_of_terminal hterminal l.status)
  | erased heq =>
    subst heq
    exact nofun

end Ledger

end Provisioner
