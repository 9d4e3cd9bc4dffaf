import Provisioner.Tool.Report

/-!
# A tool that prints nothing

Every execution of the tool has a muted counterpart: it is silent at the same moments, runs as
long and ends in the same way, but nothing is read from its streams. The two reports differ in
the masked lines and in what is taken from the transcript, and in nothing else.
-/

namespace Provisioner.Tool

/-- The turn that an event without output stems from. -/
def Event.asTurn? : Event → Option Turn
  | .line _ => none
  | .silence elapsed => some (.silence elapsed)

/-- Whether an event brings no output. -/
def Event.isSilence : Event → Bool
  | .line _ => false
  | .silence _ => true

/-- The execution that is silent when this one is, and prints nothing. -/
def Execution.muted (e : Execution) : Execution :=
  { e with out := [], err := [], turns := e.events.filterMap Event.asTurn? }

/-- The attempt with a muted tool. -/
def Attempt.muted (a : Attempt) : Attempt :=
  { a with execution := a.execution.map Execution.muted }

/-! ## What is received from a muted tool -/

namespace Streams

theorem drain_of_advance? {s t : Streams} (h : s.advance? = some t) : s.drain = t.drain := by
  rw [drain]
  split
  · next u hu => rw [Option.some.inj (h.symm.trans hu)]
  · next hnone => simp [h] at hnone

theorem drain_of_stuck {s : Streams} (h : s.advance? = none) : s.drain = s := by
  rw [drain]
  split
  · next u hu => simp [h] at hu
  · rfl

/-- Two streams without output of which nothing was read yet. -/
def quiet (received : List Event) : Streams := ⟨.start [], .start [], [], received⟩

theorem step_quiet_silence (received : List Event) (elapsed : Nat) :
    (quiet received).step (.silence elapsed) = quiet (.silence elapsed :: received) := rfl

/-- Streams without output come to their end without a line. -/
theorem received_drain_quiet (received : List Event) :
    (quiet received).drain.received = received := by
  rw [quiet, drain_of_advance? rfl, drain_of_advance? rfl, drain_of_stuck rfl]
  rfl

theorem foldl_step_quiet (events received : List Event) :
    (events.filterMap Event.asTurn?).foldl step (quiet received) =
      quiet ((events.filter Event.isSilence).reverse ++ received) := by
  induction events generalizing received with
  | nil => rfl
  | cons event events ih =>
    cases event with
    | line text => exact ih received
    | silence elapsed =>
      have hturn : Event.asTurn? (.silence elapsed) = some (.silence elapsed) := rfl
      rw [List.filterMap_cons_some hturn, List.foldl_cons, step_quiet_silence, ih,
        List.filter_cons_of_pos rfl, List.reverse_cons, List.append_assoc]
      rfl

end Streams

namespace Execution

theorem events_muted (e : Execution) : e.muted.events = e.events.filter Event.isSilence := by
  have hrun : e.muted.events =
      ((e.events.filterMap Event.asTurn?).foldl Streams.step (.quiet [])).drain.received.reverse :=
    rfl
  rw [hrun, Streams.foldl_step_quiet, Streams.received_drain_quiet, List.append_nil,
    List.reverse_reverse]

/-! ## The report of a muted tool -/

/-- A line of the report is one of the muted report, or it was masked. -/
theorem mem_lines_report {e : Execution} {settings : Settings} {inputs : Inputs} {line : String}
    (h : line ∈ (e.report settings inputs).lines) :
    line ∈ (e.muted.report settings inputs).lines ∨
      ∃ text, line = (Redactor.ofSecrets inputs.secrets).redact text := by
  rcases List.mem_append.mp h with h | h
  · obtain ⟨event, hevent, hline⟩ := List.mem_filterMap.mp h
    cases event with
    | line text =>
      simp only [eventLine?, Option.ite_none_left_eq_some] at hline
      exact .inr ⟨text, (Option.some.inj hline.2).symm⟩
    | silence elapsed =>
      refine .inl (List.mem_append.mpr (.inl (List.mem_filterMap.mpr ⟨_, ?_, hline⟩)))
      rw [events_muted]
      exact List.mem_filter.mpr ⟨hevent, rfl⟩
  · exact .inl (List.mem_append.mpr (.inr h))

/-- What the tool printed is no part of the message of a failure. -/
theorem message_of_result {e : Execution} {settings : Settings} {inputs : Inputs}
    {failure : RunFailure} (h : (e.report settings inputs).result = .error failure) :
    ∃ failure', (e.muted.report settings inputs).result = .error failure' ∧
      failure'.message = failure.message := by
  have hexit : e.muted.exit = e.exit := rfl
  simp only [report, conclude] at h ⊢
  rw [hexit]
  cases hend : e.exit with
  | lost reason =>
    rw [hend] at h
    exact ⟨failure, h, rfl⟩
  | _ =>
    rw [hend] at h
    simp only at h ⊢
    split at h
    · exact nomatch h
    · next hfailed =>
      obtain rfl := Except.error.inj h
      exact ⟨_, if_neg hfailed, rfl⟩

end Execution

namespace Attempt

theorem started_muted (a : Attempt) (settings : Settings) (path : String) (inputs : Inputs) :
    a.muted.started settings path inputs =
      (a.started settings path inputs).map Execution.muted := by
  simp only [started]
  split <;> rfl

/-- The two reports are the same, or what the tool did comes behind the same lines. -/
theorem report_muted (a : Attempt) (settings : Settings) (inputs : Inputs) :
    a.muted.report settings inputs = a.report settings inputs ∨
      ∃ (lines : List String) (e : Execution), a.report settings inputs =
          ⟨lines ++ (e.report settings inputs).lines, (e.report settings inputs).result⟩ ∧
        a.muted.report settings inputs =
          ⟨lines ++ (e.muted.report settings inputs).lines,
            (e.muted.report settings inputs).result⟩ := by
  have hinventory : a.muted.inventory = a.inventory := rfl
  simp only [report, hinventory, started_muted]
  cases a.inventory with
  | error reason => exact .inl rfl
  | ok path =>
    cases hstarted : a.started settings path inputs with
    | error fault =>
      left
      simp only [hstarted, Except.map]
    | ok e =>
      right
      refine ⟨["Starting configuration run...",
        s!"Running {settings.program} {settings.playbook}"], e, ?_, ?_⟩
      · simp only [hstarted]
        rfl
      · simp only [hstarted]
        rfl

variable {a : Attempt} {settings : Settings} {inputs : Inputs}

theorem mem_lines_report {line : String} (h : line ∈ (a.report settings inputs).lines) :
    line ∈ (a.muted.report settings inputs).lines ∨
      ∃ text, line = (Redactor.ofSecrets inputs.secrets).redact text := by
  rcases a.report_muted settings inputs with hsame | ⟨lines, e, hreport, hmuted⟩
  · exact .inl (hsame ▸ h)
  · rw [hreport] at h
    rw [hmuted]
    rcases List.mem_append.mp h with h | h
    · exact .inl (List.mem_append.mpr (.inl h))
    · rcases Execution.mem_lines_report h with h | h
      · exact .inl (List.mem_append.mpr (.inr h))
      · exact .inr h

theorem message_of_result {failure : RunFailure}
    (h : (a.report settings inputs).result = .error failure) :
    ∃ failure', (a.muted.report settings inputs).result = .error failure' ∧
      failure'.message = failure.message := by
  rcases a.report_muted settings inputs with hsame | ⟨lines, e, hreport, hmuted⟩
  · exact ⟨failure, hsame ▸ h, rfl⟩
  · have hresult : (e.report settings inputs).result = .error failure := by rwa [hreport] at h
    rw [hmuted]
    exact Execution.message_of_result hresult

end Attempt

end Provisioner.Tool
