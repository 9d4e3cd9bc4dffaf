import Provisioner.Proofs.Api.Purity

/-!
# When a job is over

When a job has written a terminal status nobody acts in it any more (`Over`), and its lines stand in
the log until a later job clears it or the machine is deleted (`Standing`). Setting the row back does
not touch them: the job that does so has the log to itself only once it has cleared it.
-/

namespace Provisioner.Api.Chronicle

open Database

variable {c c' : Chronicle} {id : MachineId} {job : Nat} {status : MachineStatus}

/-- Nobody acts for a machine in a job any more. -/
structure Over (c : Chronicle) (id : MachineId) (job : Nat) : Prop where
  lt_next : job < c.nextJob
  silent : ∀ part, ¬c.Acts id part job

/-- A job has ended in a status, and the log was not cleared since. -/
structure Standing (c : Chronicle) (id : MachineId) (job : Nat) (status : MachineStatus) :
    Prop where
  ended : c.Ended id job status
  isOver : c.Over id job
  found : c.database.find? id ≠ none
  kept_le : ∃ last kept, c.Authored id last kept ∧ kept ≤ job

/-- The log of a machine is neither cleared nor deleted with the machine. -/
def Spares (c c' : Chronicle) (id : MachineId) : Prop :=
  c'.clearings id = c.clearings id ∧
    (c'.database.statusOf? id = none → c.database.statusOf? id = none)

instance : Decidable (Spares c c' id) := inferInstanceAs (Decidable (_ ∧ (_ → _)))

namespace Change

/-- The journal only grows. -/
theorem prefix_journal (h : Change c c') : c.journal <+: c'.journal := by
  cases h with
  | rests _ hjournal _ _ | recorded _ _ _ hjournal _ _ _ | restarted _ _ _ _ hjournal _ _ _
  | erased _ _ hjournal _ _ =>
    exact hjournal ▸ List.prefix_rfl
  | wrote _ _ _ _ _ _ _ hjournal _ _ _ =>
    rw [hjournal]
    exact List.prefix_append _ _

theorem nextJob_le (h : Change c c') : c.nextJob ≤ c'.nextJob := by
  cases h with
  | rests _ _ hjobs _ | wrote _ _ _ _ _ _ _ _ hjobs _ _ | erased _ _ _ hjobs _
  | recorded _ _ _ _ hjobs _ _ | restarted _ _ _ _ _ hjobs _ _ => omega

end Change

/-- **A job that is over stays over, and nothing more is stored in it.** -/
theorem Over.change (h : c.Over id job) (hc' : c'.service.Exclusive) (hchange : Change c c') :
    c'.Over id job ∧ c'.entriesBy job id = c.entriesBy job id := by
  have hlt : job < c'.nextJob := Nat.lt_of_lt_of_le h.lt_next hchange.nextJob_le
  have hother : ∀ part k, c.Acts id part k → k ≠ job := by
    rintro part k hk rfl
    exact h.silent part hk
  cases hchange.changeAt id with
  | apart hapart =>
    exact ⟨⟨hlt, fun part hk => h.silent part (hapart.acts part job hk)⟩, hapart.entriesBy_eq job⟩
  | noted k call hactor _ _ hjournal _ hacts =>
    exact ⟨⟨hlt, fun part hk => h.silent part (hacts part job hk)⟩,
      entriesBy_concat_other hjournal (Or.inl (hother _ k hactor))⟩
  | concluded part k status hactor _ hjournal _ hacts =>
    exact ⟨⟨hlt, fun part' hk => h.silent part' (hacts part' job hk)⟩,
      entriesBy_concat_other hjournal (Or.inl (hother _ k hactor))⟩
  | renewed k hactor _ hjournal _ hactor' =>
    -- whoever acts after the clearing is the one who has cleared
    refine ⟨⟨hlt, fun part hk => hother _ k hactor (hactor'.unique hc' hk).2⟩, ?_⟩
    exact entriesBy_concat_other hjournal (Or.inl (hother _ k hactor))
  | begun _ _ _ _ hjournal _ hactor =>
    refine ⟨⟨hlt, fun part hk => ?_⟩, entriesBy_of_eq hjournal job id⟩
    exact Nat.ne_of_lt h.lt_next (hk.unique hc' hactor).2
  | erased _ hjournal _ hacts =>
    exact ⟨⟨hlt, fun part hk => h.silent part (hacts part job hk)⟩,
      entriesBy_of_eq hjournal job id⟩

/-- Those who have cleared the log when an entry is stored are not behind the job that stored it. -/
theorem Regular.job_le_of_stored (hc : c.Regular) (hc' : c'.Regular)
    (hjournal : c.journal <+: c'.journal) {k : Nat} {e : LogEntry}
    (he : e ∈ c.database.entriesOf id) (hk : e ∈ c'.entriesBy k id) {x : Signed}
    (hx : x ∈ c.journal) (hid : x.machine = id) (hclear : x.call = .clearLog) : x.job ≤ k := by
  obtain ⟨last, kept, hauthored⟩ := hc.authored id
  obtain ⟨last', kept', hauthored'⟩ := hc'.authored id
  have hkept : e ∈ c'.entriesBy kept id := mem_entriesBy_mono hjournal (hauthored.mem_entriesBy he)
  -- `e` cannot be an entry of two jobs, since entries of two jobs have different ids
  have hle : kept ≤ k := by
    refine Nat.not_lt.mp fun hlt => ?_
    exact Int.lt_irrefl _ (hauthored'.before k kept hlt e hk e hkept)
  exact Nat.le_trans (hauthored.cleared x hx hid hclear) hle

namespace Standing

/-- The row shows a terminal status: the last job has ended in it. -/
theorem of_terminal (hc : c.Regular) (hterminal : status.isTerminal = true)
    (hshown : c.database.statusOf? id = some status.word) : ∃ job, c.Standing id job status := by
  obtain ⟨last, kept, hauthored⟩ := hc.authored id
  refine ⟨last, hauthored.told status hterminal hshown, ⟨hauthored.lt_next, ?_⟩, ?_,
    last, kept, hauthored, hauthored.le⟩
  · exact fun part => not_acts_of_terminal hc.exclusive hterminal hshown part last
  · intro hnone
    rw [find?_eq_none_iff.mp hnone] at hshown
    cases hshown

theorem change (h : c.Standing id job status) (hc : c.Regular) (hc' : c'.service.Exclusive)
    (hchange : Change c c') (hspares : c.Spares c' id) : c'.Standing id job status := by
  obtain ⟨last, kept, hauthored, hle⟩ := h.kept_le
  obtain ⟨last', kept', hauthored', hkept⟩ := hauthored.change hc' hc.lt_next hchange
  refine ⟨h.ended.mono hchange.prefix_journal, (h.isOver.change hc' hchange).1, ?_,
    last', kept', hauthored', ?_⟩
  · exact fun hnone =>
      h.found (find?_eq_none_iff.mpr (hspares.2 (find?_eq_none_iff.mp hnone)))
  · rcases hkept with rfl | hnone | hcleared
    · exact hle
    · exact absurd hnone h.found
    · have := hspares.1
      omega

/-- The job has stored nothing, or all that is stored. -/
theorem entriesBy_cases (h : c.Standing id job status) :
    c.entriesBy job id = [] ∨ c.entriesBy job id = c.database.entriesOf id := by
  obtain ⟨last, kept, hauthored, hle⟩ := h.kept_le
  rcases Nat.lt_or_eq_of_le hle with hlt | rfl
  · exact Or.inl (hauthored.later job hlt)
  · exact Or.inr (hauthored.stored h.found).symm

theorem mem_entriesOf (h : c.Standing id job status) {e : LogEntry} (he : e ∈ c.entriesBy job id) :
    e ∈ c.database.entriesOf id := by
  rcases h.entriesBy_cases with hnone | hstored
  · rw [hnone] at he
    cases he
  · rwa [hstored] at he

theorem sorted_entriesBy (h : c.Standing id job status) (hc : c.database.LogOrdered) :
    (c.entriesBy job id).Pairwise (·.id < ·.id) := by
  rcases h.entriesBy_cases with hnone | hstored
  · rw [hnone]
    exact List.Pairwise.nil
  · rw [hstored]
    exact hc.sorted_entriesOf id

/-- Whatever else was stored for the machine was stored in an earlier job, and before. -/
theorem earlier (h : c.Standing id job status) {k : Nat} {e : LogEntry}
    (he : e ∈ c.entriesBy k id) (hother : e ∉ c.entriesBy job id) :
    k < job ∧ ∀ e' ∈ c.entriesBy job id, e.id < e'.id := by
  obtain ⟨last, kept, hauthored, hle⟩ := h.kept_le
  have hk : k ≤ kept := by
    refine Nat.not_lt.mp fun hlt => ?_
    rw [hauthored.later k hlt] at he
    cases he
  have hne : k ≠ job := by
    rintro rfl
    exact hother he
  have hlt : k < job := by omega
  exact ⟨hlt, hauthored.before k job hlt e he⟩

end Standing

end Provisioner.Api.Chronicle
