import Mathlib.Data.List.Forall2
import Provisioner.Proofs.Text.Search
import Provisioner.Proofs.Tool.Muted
import Provisioner.Run.Script

/-!
# Spans of time in the report of the configuration tool

How long things took shows in the lines of a report and nowhere else. Two executions that differ
in nothing but that (`Execution.untimed`) give reports of the same length: the lines are the same up
to the spans of time in them (`Retimed`), and the result is the same.

The lines with spans of time never tell that the provider's key was revoked.
-/

namespace Provisioner.Tool

/-- A turn without how long it took. -/
def Turn.untimed : Turn → Turn
  | .silence _ => .silence 0
  | turn => turn

/-- An event without how long it took. -/
def Event.untimed : Event → Event
  | .line text => .line text
  | .silence _ => .silence 0

/-- An execution without how long it took. -/
def Execution.untimed (e : Execution) : Execution :=
  { e with turns := e.turns.map Turn.untimed, elapsed := 0 }

/-- An attempt without how long it took. -/
def Attempt.untimed (a : Attempt) : Attempt :=
  { a with execution := a.execution.map Execution.untimed }

/-- Two lines of a report are the same up to a span of time. -/
inductive Retimed : String → String → Prop where
  | same (line : String) : Retimed line line
  | silence (settings : Settings) (elapsed elapsed' : Nat) :
      Retimed (silenceLine settings elapsed) (silenceLine settings elapsed')
  | ended {e e' : Execution} (hexit : e.exit = e'.exit) (hknown : ∀ reason, e.exit ≠ .lost reason) :
      Retimed (endLine e) (endLine e')

/-! ## What is received -/

namespace Streams

/-- Streams without how long the silences took. -/
def untimed (s : Streams) : Streams := { s with received := s.received.map Event.untimed }

theorem read?_untimed (s : Streams) (stream : Stream) :
    s.untimed.read? stream = (s.read? stream).map untimed := by
  have hpump : s.untimed.pump stream = s.pump stream := by cases stream <;> rfl
  unfold read?
  rw [hpump, Option.map_map]
  cases stream <;> rfl

theorem send?_untimed (s : Streams) (stream : Stream) :
    s.untimed.send? stream = (s.send? stream).map untimed := by
  have hpump : s.untimed.pump stream = s.pump stream := by cases stream <;> rfl
  unfold send?
  rw [hpump]
  cases (s.pump stream).waiting with
  | nil => rfl
  | cons line waiting =>
    simp only
    have hqueue : s.untimed.queue = s.queue := rfl
    rw [hqueue]
    split
    · cases stream <;> rfl
    · rfl

theorem receive?_untimed (s : Streams) : s.untimed.receive? = s.receive?.map untimed := by
  obtain ⟨out, err, queue, received⟩ := s
  cases queue <;> rfl

theorem silence?_untimed (s : Streams) (elapsed : Nat) :
    s.untimed.silence? 0 = (s.silence? elapsed).map untimed := by
  unfold silence?
  have hsame : (s.untimed.queue.isEmpty && !s.untimed.isOver) =
      (s.queue.isEmpty && !s.isOver) := rfl
  rw [hsame]
  split <;> rfl

theorem step_untimed (s : Streams) (turn : Turn) :
    s.untimed.step turn.untimed = (s.step turn).untimed := by
  have hstep : s.untimed.step? turn.untimed = (s.step? turn).map untimed := by
    cases turn with
    | read stream => exact read?_untimed s stream
    | send stream => exact send?_untimed s stream
    | receive => exact receive?_untimed s
    | silence elapsed => exact silence?_untimed s elapsed
  unfold step
  rw [hstep]
  cases s.step? turn <;> rfl

theorem advance?_untimed (s : Streams) : s.untimed.advance? = s.advance?.map untimed := by
  unfold advance?
  rw [receive?_untimed, send?_untimed, send?_untimed, read?_untimed, read?_untimed]
  simp only [Option.map_or]

/-- Silences have no influence on how the streams come to their end. -/
theorem drain_untimed (s : Streams) : s.untimed.drain = s.drain.untimed := by
  induction s using drain.induct with
  | case1 s t hnext ih =>
    have hnext' : s.untimed.advance? = some t.untimed := by rw [advance?_untimed, hnext]; rfl
    rw [drain_of_advance? hnext', drain_of_advance? hnext, ih]
  | case2 s hstuck =>
    have hstuck' : s.untimed.advance? = none := by rw [advance?_untimed, hstuck]; rfl
    rw [drain_of_stuck hstuck', drain_of_stuck hstuck]

theorem foldl_step_untimed (turns : List Turn) (s : Streams) :
    (turns.map Turn.untimed).foldl step s.untimed = (turns.foldl step s).untimed := by
  induction turns generalizing s with
  | nil => rfl
  | cons turn turns ih => rw [List.map_cons, List.foldl_cons, List.foldl_cons, step_untimed, ih]

end Streams

theorem Execution.events_untimed (e : Execution) :
    e.untimed.events = e.events.map Event.untimed := by
  have hrun : (Streams.start e.out e.err).run (e.turns.map Turn.untimed) =
      ((Streams.start e.out e.err).run e.turns).untimed := by
    unfold Streams.run
    rw [← Streams.drain_untimed, ← Streams.foldl_step_untimed]
    rfl
  show ((Streams.start e.out e.err).run (e.turns.map Turn.untimed)).received.reverse = _
  rw [hrun]
  exact List.map_reverse.symm

theorem received_map_untimed (events : List Event) :
    received (events.map Event.untimed) = received events := by
  unfold received
  rw [List.filterMap_map]
  congr 1
  funext event
  cases event <;> rfl

/-! ## Reports -/

theorem Event.retimed_eventLine? (settings : Settings) (redactor : Redactor) {event event' : Event}
    (h : event.untimed = event'.untimed) :
    Option.Rel Retimed (eventLine? settings redactor event) (eventLine? settings redactor event') := by
  cases event with
  | line text =>
    cases event' with
    | silence elapsed => cases h
    | line text' =>
      cases h
      cases eventLine? settings redactor (.line text) with
      | none => exact .none
      | some line => exact .some (.same line)
  | silence elapsed =>
    cases event' with
    | line text => cases h
    | silence elapsed' => exact .some (.silence settings elapsed elapsed')

variable {e e' : Execution} {a a' : Attempt}

theorem Execution.retimed_endLines (h : e.exit = e'.exit) :
    List.Forall₂ Retimed (endLines e) (endLines e') := by
  unfold endLines
  rw [← h]
  cases hexit : e.exit with
  | lost reason => exact .nil
  | code value => exact .cons (.ended h (by rw [hexit]; nofun)) .nil
  | signal number dumped => exact .cons (.ended h (by rw [hexit]; nofun)) .nil

theorem Execution.retimed_report (h : e.untimed = e'.untimed) (settings : Settings)
    (inputs : Inputs) :
    List.Forall₂ Retimed (e.report settings inputs).lines (e'.report settings inputs).lines ∧
      (e.report settings inputs).result = (e'.report settings inputs).result := by
  have hexit : e.untimed.exit = e'.untimed.exit := congrArg Execution.exit h
  replace hexit : e.exit = e'.exit := hexit
  have hevents : e.events.map Event.untimed = e'.events.map Event.untimed := by
    rw [← events_untimed, ← events_untimed, h]
  have hrelated : List.Forall₂ (fun a b => a.untimed = b.untimed) e.events e'.events := by
    rw [← List.forall₂_eq_eq_eq, List.forall₂_map_left_iff, List.forall₂_map_right_iff] at hevents
    exact hevents
  refine ⟨?_, ?_⟩
  · refine List.rel_append (List.rel_filterMap ?_ hrelated) (retimed_endLines hexit)
    intro event event' hevent
    exact Event.retimed_eventLine? settings _ hevent
  · show conclude e _ = conclude e' _
    rw [← received_map_untimed e.events, hevents, received_map_untimed]
    unfold conclude
    rw [hexit]

theorem Attempt.started_untimed (a : Attempt) (settings : Settings) (path : String)
    (inputs : Inputs) :
    a.untimed.started settings path inputs =
      (a.started settings path inputs).map Execution.untimed := by
  simp only [started]
  split <;> rfl

theorem forall₂_retimed_refl (lines : List String) : List.Forall₂ Retimed lines lines :=
  List.forall₂_same.mpr fun line _ => .same line

/-- **The reports of two attempts that differ in spans of time are the same up to those.** -/
theorem Attempt.retimed_report (h : a.untimed = a'.untimed) (settings : Settings)
    (inputs : Inputs) :
    List.Forall₂ Retimed (a.report settings inputs).lines (a'.report settings inputs).lines ∧
      (a.report settings inputs).result = (a'.report settings inputs).result := by
  have hinventory : a.untimed.inventory = a'.untimed.inventory := congrArg Attempt.inventory h
  replace hinventory : a.inventory = a'.inventory := hinventory
  unfold report
  rw [← hinventory]
  cases a.inventory with
  | error reason => exact ⟨forall₂_retimed_refl _, rfl⟩
  | ok path =>
    have hstarted : (a.started settings path inputs).map Execution.untimed =
        (a'.started settings path inputs).map Execution.untimed := by
      rw [← started_untimed, ← started_untimed, h]
    simp only
    cases hs : a.started settings path inputs with
    | error fault =>
      cases hs' : a'.started settings path inputs with
      | error fault' =>
        rw [hs, hs'] at hstarted
        cases hstarted
        exact ⟨forall₂_retimed_refl _, rfl⟩
      | ok e' =>
        rw [hs, hs'] at hstarted
        cases hstarted
    | ok e =>
      cases hs' : a'.started settings path inputs with
      | error fault' =>
        rw [hs, hs'] at hstarted
        cases hstarted
      | ok e' =>
        rw [hs, hs'] at hstarted
        obtain ⟨hlines, hresult⟩ :=
          Execution.retimed_report (Except.ok.inj hstarted) settings inputs
        exact ⟨.cons (.same _) (.cons (.same _) hlines), hresult⟩

/-! ## What the lines with spans of time do not tell -/

/-- A character that is no digit is in no number. -/
theorem not_mem_toDigits (ch : Char) (hch : ch.isDigit = false) (n : Nat) :
    ch ∉ Nat.toDigits 10 n := by
  intro h
  rw [Nat.isDigit_of_mem_toDigits (by decide) (by decide) h] at hch
  cases hch

theorem toString_text (text : String) : toString text = text := rfl

theorem not_mem_elapsedText (seconds : Nat) : 'z' ∉ (elapsedText seconds).toList := by
  have hdigits := not_mem_toDigits 'z' rfl
  unfold elapsedText
  simp only
  split
  · simp [hdigits, toString_text]
  · split <;> simp [hdigits, toString_text]

theorem not_mem_silenceLine (settings : Settings) (elapsed : Nat) :
    'z' ∉ (silenceLine settings elapsed).toList := by
  have hdigits := not_mem_toDigits 'z' rfl
  unfold silenceLine
  simp [hdigits, toString_text, not_mem_elapsedText]

theorem not_mem_exitText {exit : Exit} (h : ∀ reason, exit ≠ .lost reason) :
    'z' ∉ exit.text.toList := by
  have hdigits := not_mem_toDigits 'z' rfl
  unfold Exit.text
  cases exit with
  | lost reason => exact absurd rfl (h reason)
  | code value =>
    cases value with
    | ofNat n =>
      show 'z' ∉ ("exit status: " ++ toString n).toList
      simp [hdigits]
    | negSucc n =>
      show 'z' ∉ ("exit status: " ++ ("-" ++ toString (n + 1))).toList
      simp [hdigits]
  | signal number dumped =>
    have hnames : ∀ p ∈ signalNames, 'z' ∉ p.2.toList := by decide +kernel
    have hdump : 'z' ∉ (if dumped then " (core dumped)" else "").toList := by
      cases dumped <;> decide
    simp only
    cases hname : signalNames.lookup number with
    | none => simp [hdigits, hdump, toString_text]
    | some name =>
      obtain ⟨before, after, hsplit, -⟩ := List.lookup_eq_some_iff.mp hname
      have hmem : (number, name) ∈ signalNames := by simp [hsplit]
      simp [hdigits, hdump, toString_text, hnames _ hmem]

theorem not_mem_endLine {e : Execution} (h : ∀ reason, e.exit ≠ .lost reason) :
    'z' ∉ (endLine e).toList := by
  unfold endLine
  simp only
  split <;> simp [toString_text, not_mem_elapsedText, not_mem_exitText h]

/-- A line that tells that the key was revoked names the provider, whose name has this letter. -/
theorem tellsKeyRemoved_eq_false {line : String} (h : 'z' ∉ line.toList) :
    Script.tellsKeyRemoved line = false := by
  cases htells : Script.tellsKeyRemoved line with
  | false => rfl
  | true =>
    have hmarker : 'z' ∈ Script.keyRemovedMarker.toList := by decide +kernel
    exact absurd ((Text.occursIn_iff.mp htells).subset hmarker) h

/-- Lines that are the same up to a span of time tell the same. -/
theorem Retimed.tellsKeyRemoved_eq {line line' : String} (h : Retimed line line') :
    Script.tellsKeyRemoved line = Script.tellsKeyRemoved line' := by
  cases h with
  | same => rfl
  | silence settings elapsed elapsed' =>
    rw [tellsKeyRemoved_eq_false (not_mem_silenceLine settings elapsed),
      tellsKeyRemoved_eq_false (not_mem_silenceLine settings elapsed')]
  | @ended e e' hexit hknown =>
    rw [tellsKeyRemoved_eq_false (not_mem_endLine hknown),
      tellsKeyRemoved_eq_false (not_mem_endLine (hexit ▸ hknown))]

end Provisioner.Tool
