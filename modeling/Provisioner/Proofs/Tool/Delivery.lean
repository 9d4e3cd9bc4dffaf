import Provisioner.Proofs.Log.Splitter
import Provisioner.Proofs.Tool.Muted

/-!
# Every line of the tool is received once

What a pump has handed over and what it has still to hand over make the lines of its stream
(`Pump.toCome`), and what was received and what is queued is a shuffle of what the two pumps have
handed over (`Streams.Merges`). Every turn keeps this. There is a turn to take until both streams
are read to their end and everything is received, so then the lines of both streams are there, each
once and those of one stream in their order.
-/

namespace Provisioner.Tool

/-! ## Shuffles -/

/-- The third list holds the items of the other two, those of each in their order. -/
inductive Shuffle {α : Type} : List α → List α → List α → Prop where
  | nil : Shuffle [] [] []
  | left {a b c : List α} (x : α) (h : Shuffle a b c) : Shuffle (x :: a) b (x :: c)
  | right {a b c : List α} (x : α) (h : Shuffle a b c) : Shuffle a (x :: b) (x :: c)

namespace Shuffle

variable {α : Type} {a b c : List α}

theorem singleton_left (x : α) : Shuffle [x] [] [x] := .left x .nil

theorem singleton_right (x : α) : Shuffle [] [x] [x] := .right x .nil

theorem append {a' b' c' : List α} (h : Shuffle a b c) (h' : Shuffle a' b' c') :
    Shuffle (a ++ a') (b ++ b') (c ++ c') := by
  induction h with
  | nil => exact h'
  | left x _ ih => exact .left x ih
  | right x _ ih => exact .right x ih

theorem concat_left (h : Shuffle a b c) (x : α) : Shuffle (a ++ [x]) b (c ++ [x]) := by
  have := h.append (singleton_left x)
  rwa [List.append_nil] at this

theorem concat_right (h : Shuffle a b c) (x : α) : Shuffle a (b ++ [x]) (c ++ [x]) := by
  have := h.append (singleton_right x)
  rwa [List.append_nil] at this

theorem mem_or_mem {x : α} (h : Shuffle a b c) (hmem : x ∈ c) : x ∈ a ∨ x ∈ b := by
  induction h with
  | nil => exact .inl hmem
  | left y _ ih =>
    rcases List.mem_cons.mp hmem with rfl | hmem
    · exact .inl List.mem_cons_self
    · exact (ih hmem).imp_left (List.mem_cons_of_mem y)
  | right y _ ih =>
    rcases List.mem_cons.mp hmem with rfl | hmem
    · exact .inr List.mem_cons_self
    · exact (ih hmem).imp_right (List.mem_cons_of_mem y)

end Shuffle

/-! ## One stream -/

namespace Pump

/-- The lines that a pump has still to hand over. -/
def toCome (p : Pump) : List String :=
  p.waiting ++ if p.ended then [] else p.splitter.toEnd p.unread.flatten

/-- A pump that has read the end of its stream has nothing of it left. -/
def Sound (p : Pump) : Prop := p.ended = true → p.unread = [] ∧ p.splitter = .start

/-- The stream was read to its end, and all of its lines were handed over. -/
structure Exhausted (p : Pump) : Prop where
  unread : p.unread = []
  splitter : p.splitter = .start
  waiting : p.waiting = []

theorem toCome_start (chunks : List (List UInt8)) :
    (start chunks).toCome = Splitter.linesOf chunks.flatten :=
  Splitter.toEnd_start chunks.flatten

theorem sound_start (chunks : List (List UInt8)) : (start chunks).Sound := by
  rintro ⟨⟩

/-- A read happens when nothing waits, and brings a chunk or the end of the stream. -/
theorem read?_cases {p q : Pump} (h : p.read? = some q) :
    p.waiting = [] ∧ p.ended = false ∧
      ((∃ chunk unread, p.unread = chunk :: unread ∧
          q = ⟨unread, (p.splitter.push chunk).2, (p.splitter.push chunk).1, false⟩) ∨
        (p.unread = [] ∧ q = ⟨[], p.splitter.finish.2, p.splitter.finish.1.toList, true⟩)) := by
  obtain ⟨unread, splitter, waiting, ended⟩ := p
  cases waiting with
  | cons line waiting => cases h
  | nil =>
    cases ended with
    | true => cases unread <;> cases h
    | false =>
      refine ⟨rfl, rfl, ?_⟩
      cases unread with
      | cons chunk unread => exact .inl ⟨chunk, unread, rfl, (Option.some.inj h).symm⟩
      | nil => exact .inr ⟨rfl, (Option.some.inj h).symm⟩

/-- Reading takes no line away and adds none. -/
theorem toCome_read? {p q : Pump} (h : p.read? = some q) : q.toCome = p.toCome := by
  obtain ⟨hwaiting, hended, hread⟩ := read?_cases h
  have hp : p.toCome = p.splitter.toEnd p.unread.flatten := by
    rw [toCome, hwaiting, hended]
    rfl
  rw [hp]
  rcases hread with ⟨chunk, unread, hunread, rfl⟩ | ⟨hunread, rfl⟩
  · rw [hunread, List.flatten_cons, Splitter.toEnd_append]
    rfl
  · rw [hunread]
    exact List.append_nil _

theorem sound_read? {p q : Pump} (h : p.read? = some q) : q.Sound := by
  obtain ⟨-, -, ⟨chunk, unread, -, rfl⟩ | ⟨-, rfl⟩⟩ := read?_cases h
  · rintro ⟨⟩
  · exact fun _ => ⟨rfl, Splitter.finish_snd _⟩

theorem exhausted_of_isDone {p : Pump} (hp : p.Sound) (h : p.isDone = true) : p.Exhausted := by
  obtain ⟨hended, hwaiting⟩ := Bool.and_eq_true_iff.mp h
  obtain ⟨hunread, hsplitter⟩ := hp hended
  exact ⟨hunread, hsplitter, List.isEmpty_iff.mp hwaiting⟩

theorem toCome_of_waiting {p : Pump} {line : String} {waiting : List String}
    (h : p.waiting = line :: waiting) : p.toCome = line :: toCome { p with waiting } := by
  rw [toCome, h]
  rfl

theorem Exhausted.toCome_eq {p : Pump} (h : p.Exhausted) : p.toCome = [] := by
  rw [toCome, h.waiting, h.unread, h.splitter]
  split <;> rfl

/-- A pump that can neither read nor hand over a line is done. -/
theorem isDone_of_stuck {p : Pump} (hwaiting : p.waiting = []) (hread : p.read? = none) :
    p.isDone = true := by
  obtain ⟨unread, splitter, waiting, ended⟩ := p
  obtain rfl : waiting = [] := hwaiting
  cases ended with
  | true => rfl
  | false => cases unread <;> cases hread

end Pump

/-! ## Both streams -/

namespace Streams

variable {s t : Streams} {stream : Stream}

theorem pump_withPump (s : Streams) (stream other : Stream) (p : Pump) :
    (s.withPump stream p).pump other = if other = stream then p else s.pump other := by
  cases stream <;> cases other <;> rfl

theorem queue_withPump (s : Streams) (stream : Stream) (p : Pump) :
    (s.withPump stream p).queue = s.queue := by
  cases stream <;> rfl

theorem received_withPump (s : Streams) (stream : Stream) (p : Pump) :
    (s.withPump stream p).received = s.received := by
  cases stream <;> rfl

theorem send?_cases (h : s.send? stream = some t) :
    ∃ line waiting, (s.pump stream).waiting = line :: waiting ∧
      t = { s.withPump stream { s.pump stream with waiting } with queue := s.queue ++ [line] } := by
  unfold send? at h
  split at h
  · next line waiting hwaiting =>
    split at h
    · exact ⟨line, waiting, hwaiting, (Option.some.inj h).symm⟩
    · cases h
  · cases h

theorem receive?_cases (h : s.receive? = some t) :
    ∃ line queue, s.queue = line :: queue ∧
      t = { s with queue, received := .line line :: s.received } := by
  unfold receive? at h
  split at h
  · next line queue hqueue => exact ⟨line, queue, hqueue, (Option.some.inj h).symm⟩
  · cases h

/-- What brings the streams closer to their end is a turn. -/
theorem exists_turn_of_advance? (h : s.advance? = some t) : ∃ turn, s.step? turn = some t := by
  simp only [advance?, Option.or_eq_some_iff] at h
  rcases h with h | ⟨_, h | ⟨_, h | ⟨_, h | ⟨_, h⟩⟩⟩⟩
  · exact ⟨.receive, h⟩
  · exact ⟨.send .out, h⟩
  · exact ⟨.send .err, h⟩
  · exact ⟨.read .out, h⟩
  · exact ⟨.read .err, h⟩

/-- The streams are over as soon as there is nothing to be done. -/
theorem isOver_of_stuck (h : s.advance? = none) : s.isOver = true := by
  simp only [advance?, Option.or_eq_none_iff] at h
  obtain ⟨hreceive, hsendOut, hsendErr, hreadOut, hreadErr⟩ := h
  have hqueue : s.queue = [] := by
    unfold receive? at hreceive
    split at hreceive
    · cases hreceive
    · next hqueue => exact hqueue
  have hdone : ∀ stream, s.send? stream = none → s.read? stream = none →
      (s.pump stream).isDone = true := by
    intro stream hsend hread
    refine Pump.isDone_of_stuck ?_ (Option.map_eq_none_iff.mp hread)
    unfold send? at hsend
    split at hsend
    -- the queue is empty, so a line that waits could be handed over
    · rw [hqueue] at hsend
      cases hsend
    · next hwaiting => exact hwaiting
  have hout : s.out.isDone = true := hdone .out hsendOut hreadOut
  have herr : s.err.isDone = true := hdone .err hsendErr hreadErr
  rw [isOver, hout, herr, hqueue]
  rfl

/--
Both pumps are sound, and what was received and is queued is a shuffle of the lines that they have
handed over.
-/
structure Merges (lines : Stream → List String) (s : Streams) : Prop where
  sound : ∀ stream, (s.pump stream).Sound
  shuffled : ∃ handed : Stream → List String,
    (∀ stream, lines stream = handed stream ++ (s.pump stream).toCome) ∧
      Shuffle (handed .out) (handed .err) (Tool.received s.received.reverse ++ s.queue)

namespace Merges

variable {lines : Stream → List String}

theorem read (h : s.Merges lines) {p : Pump} (hread : (s.pump stream).read? = some p) :
    (s.withPump stream p).Merges lines := by
  obtain ⟨hsound, handed, hlines, hshuffle⟩ := h
  refine ⟨?_, handed, ?_, ?_⟩
  · intro other
    rw [pump_withPump]
    split
    · exact Pump.sound_read? hread
    · exact hsound other
  · intro other
    rw [pump_withPump]
    split
    · next hother => rw [Pump.toCome_read? hread, ← hother, hlines other]
    · exact hlines other
  · rwa [queue_withPump, received_withPump]

theorem send (h : s.Merges lines) {line : String} {waiting : List String}
    (hwaiting : (s.pump stream).waiting = line :: waiting) :
    Merges lines
      { s.withPump stream { s.pump stream with waiting } with queue := s.queue ++ [line] } := by
  obtain ⟨hsound, handed, hlines, hshuffle⟩ := h
  refine ⟨?_, fun other => if other = stream then handed other ++ [line] else handed other, ?_, ?_⟩
  · intro other
    show ((s.withPump stream _).pump other).Sound
    rw [pump_withPump]
    split
    · exact hsound stream
    · exact hsound other
  · intro other
    show _ = (if other = stream then _ else _) ++ ((s.withPump stream _).pump other).toCome
    rw [pump_withPump]
    split
    · next hother =>
      rw [hlines other, hother, Pump.toCome_of_waiting hwaiting, List.append_cons]
    · exact hlines other
  · show Shuffle _ _ (Tool.received (s.withPump stream _).received.reverse ++ (s.queue ++ [line]))
    rw [received_withPump, ← List.append_assoc]
    cases stream with
    | out => exact hshuffle.concat_left line
    | err => exact hshuffle.concat_right line

theorem receive (h : s.Merges lines) {line : String} {queue : List String}
    (hqueue : s.queue = line :: queue) :
    Merges lines { s with queue, received := .line line :: s.received } := by
  obtain ⟨hsound, handed, hlines, hshuffle⟩ := h
  refine ⟨hsound, handed, hlines, ?_⟩
  have hreceived : Tool.received (Event.line line :: s.received).reverse ++ queue =
      Tool.received s.received.reverse ++ s.queue := by
    rw [List.reverse_cons, Tool.received, List.filterMap_append, hqueue, List.append_assoc]
    rfl
  rwa [← hreceived] at hshuffle

theorem silence (h : s.Merges lines) (elapsed : Nat) :
    Merges lines { s with received := .silence elapsed :: s.received } := by
  obtain ⟨hsound, handed, hlines, hshuffle⟩ := h
  refine ⟨hsound, handed, hlines, ?_⟩
  have hreceived : Tool.received (Event.silence elapsed :: s.received).reverse =
      Tool.received s.received.reverse := by
    rw [List.reverse_cons, Tool.received, List.filterMap_append]
    exact List.append_nil _
  rwa [← hreceived] at hshuffle

/-- **No turn loses, repeats or reorders a line.** -/
theorem step? (h : s.Merges lines) {turn : Turn} (hstep : s.step? turn = some t) :
    t.Merges lines := by
  cases turn with
  | read stream =>
    obtain ⟨p, hread, rfl⟩ := Option.map_eq_some_iff.mp hstep
    exact h.read hread
  | send stream =>
    obtain ⟨line, waiting, hwaiting, rfl⟩ := send?_cases hstep
    exact h.send hwaiting
  | receive =>
    obtain ⟨line, queue, hqueue, rfl⟩ := receive?_cases hstep
    exact h.receive hqueue
  | silence elapsed =>
    obtain rfl := Option.some.inj (Option.ite_none_right_eq_some.mp hstep).2
    exact h.silence elapsed

theorem foldl_step (h : s.Merges lines) (turns : List Turn) :
    (turns.foldl step s).Merges lines := by
  induction turns generalizing s with
  | nil => exact h
  | cons turn turns ih =>
    refine ih ?_
    unfold Streams.step
    cases hstep : s.step? turn with
    | none => exact h
    | some t => exact h.step? hstep

theorem drain (h : s.Merges lines) : s.drain.Merges lines := by
  induction s using drain.induct with
  | case1 s t hnext ih =>
    obtain ⟨turn, hstep⟩ := exists_turn_of_advance? hnext
    rw [drain_of_advance? hnext]
    exact ih (h.step? hstep)
  | case2 s hstuck =>
    rw [drain_of_stuck hstuck]
    exact h

end Merges

theorem isOver_drain (s : Streams) : s.drain.isOver = true := by
  induction s using drain.induct with
  | case1 s t hnext ih =>
    rw [drain_of_advance? hnext]
    exact ih
  | case2 s hstuck =>
    rw [drain_of_stuck hstuck]
    exact isOver_of_stuck hstuck

/-- Both streams were read to their end, and their lines were received. -/
structure Delivered (lines : Stream → List String) (s : Streams) : Prop where
  exhausted : ∀ stream, (s.pump stream).Exhausted
  queue : s.queue = []
  shuffled : Shuffle (lines .out) (lines .err) (Tool.received s.received.reverse)

theorem Merges.delivered {lines : Stream → List String} (h : s.Merges lines)
    (hover : s.isOver = true) : s.Delivered lines := by
  obtain ⟨hsound, handed, hlines, hshuffle⟩ := h
  obtain ⟨hdone, hqueue⟩ := Bool.and_eq_true_iff.mp hover
  obtain ⟨hout, herr⟩ := Bool.and_eq_true_iff.mp hdone
  replace hqueue : s.queue = [] := List.isEmpty_iff.mp hqueue
  have hexhausted : ∀ stream, (s.pump stream).Exhausted := by
    rintro (_ | _)
    · exact Pump.exhausted_of_isDone (hsound .out) hout
    · exact Pump.exhausted_of_isDone (hsound .err) herr
  have hhanded : ∀ stream, lines stream = handed stream := by
    intro stream
    rw [hlines stream, (hexhausted stream).toCome_eq, List.append_nil]
  rw [hqueue, List.append_nil, ← hhanded .out, ← hhanded .err] at hshuffle
  exact ⟨hexhausted, hqueue, hshuffle⟩

/-- The lines of a stream, by what the reads of the two streams return. -/
def printed (out err : List (List UInt8)) : Stream → List String
  | .out => Splitter.linesOf out.flatten
  | .err => Splitter.linesOf err.flatten

theorem merges_start (out err : List (List UInt8)) : (start out err).Merges (printed out err) := by
  refine ⟨?_, fun _ => [], ?_, .nil⟩
  · rintro (_ | _)
    · exact Pump.sound_start out
    · exact Pump.sound_start err
  · rintro (_ | _)
    · exact (Pump.toCome_start out).symm
    · exact (Pump.toCome_start err).symm

/-- However reading and receiving take turns, the streams get to their end with every line. -/
theorem delivered_run (out err : List (List UInt8)) (turns : List Turn) :
    ((start out err).run turns).Delivered (printed out err) :=
  ((merges_start out err).foldl_step turns).drain.delivered (isOver_drain _)

end Streams

/-! ## What is logged of it -/

/-- How long the tool had run at each silence. -/
def silences (events : List Event) : List Nat :=
  events.filterMap fun
    | .line _ => none
    | .silence elapsed => some elapsed

/-- The received lines that are not empty are logged masked, and each silence is logged. -/
theorem shuffle_eventLine? (settings : Settings) (redactor : Redactor) (events : List Event) :
    Shuffle (((received events).filter (!·.isEmpty)).map redactor.redact)
      ((silences events).map (silenceLine settings))
      (events.filterMap (eventLine? settings redactor)) := by
  induction events with
  | nil => exact .nil
  | cons event events ih =>
    cases event with
    | line text =>
      show Shuffle (((text :: received events).filter (!·.isEmpty)).map redactor.redact)
        ((silences events).map (silenceLine settings)) _
      by_cases h : text.isEmpty = true
      · have hline : eventLine? settings redactor (.line text) = none := if_pos h
        rw [List.filter_cons_of_neg (by simp [h]), List.filterMap_cons_none hline]
        exact ih
      · have hline : eventLine? settings redactor (.line text) = some (redactor.redact text) :=
          if_neg h
        rw [List.filter_cons_of_pos (by simpa using h), List.filterMap_cons_some hline]
        exact .left _ ih
    | silence elapsed => exact .right _ ih

/--
**No line of the tool is lost, repeated or torn.** However reading, handing over and receiving take
turns, they come to an end, and at no earlier moment than when both streams are exhausted and each
of their lines was received once, those of one stream in order. What the report then says between
the line about the start and the one about the end are the received lines that are not empty,
masked and in order, and the lines about silences.
-/
theorem Attempt.lines_delivered {a : Attempt} {settings : Settings} {inputs : Inputs} {path : String}
    {e : Execution} (hinventory : a.inventory = .ok path)
    (hstarted : a.started settings path inputs = .ok e) :
    (∀ turns : List Turn, (turns.foldl Streams.step (.start e.out e.err)).isOver = true →
      (turns.foldl Streams.step (.start e.out e.err)).Delivered (Streams.printed e.out e.err)) ∧
    ((Streams.start e.out e.err).run e.turns).isOver = true ∧
    Shuffle (Splitter.linesOf e.out.flatten) (Splitter.linesOf e.err.flatten)
      (received e.events) ∧
    ∃ forwarded, (a.report settings inputs).lines = "Starting configuration run..." ::
        s!"Running {settings.program} {settings.playbook}" :: (forwarded ++ endLines e) ∧
      Shuffle (((received e.events).filter (!·.isEmpty)).map
          (Redactor.ofSecrets inputs.secrets).redact)
        ((silences e.events).map (silenceLine settings)) forwarded := by
  have hmerges := Streams.merges_start e.out e.err
  refine ⟨?_, Streams.isOver_drain _, ?_, ?_⟩
  · intro turns hover
    exact (hmerges.foldl_step turns).delivered hover
  · exact (Streams.delivered_run e.out e.err e.turns).shuffled
  · refine ⟨_, ?_, shuffle_eventLine? settings _ e.events⟩
    simp only [report, hinventory, hstarted]
    rfl

/-! ## A tool that prints on both streams -/

/--
A tool that prints three lines on one stream, the second one empty and the last one without its
end, and one line on the other stream in pieces.
-/
def Execution.bothPrinted : Execution :=
  ⟨[[0x61, 0x0A, 0x0A, 0x62]], [[0xC3], [0xA9, 0x0D], [0x0A]],
    [.read .err, .silence 61, .read .out, .send .out, .read .err, .receive, .read .err, .send .err],
    .code 0, 70⟩

/-- The tool is started and prints on both streams. -/
def Attempt.bothPrinted : Attempt := ⟨.ok "inventory.ini", .ok .bothPrinted⟩

/-- A playbook without further arguments. -/
def Settings.simple : Settings := ⟨"ansible-playbook", "site.yml", "/keys/id_ed25519", [], 60000⟩

theorem Attempt.lines_delivered_bothPrinted :
    Attempt.bothPrinted.inventory = .ok "inventory.ini" ∧
    Attempt.bothPrinted.started .simple "inventory.ini" .empty = .ok .bothPrinted ∧
    (∀ turns : List Turn,
      (turns.foldl Streams.step
        (.start Execution.bothPrinted.out Execution.bothPrinted.err)).isOver = true →
      (turns.foldl Streams.step
        (.start Execution.bothPrinted.out Execution.bothPrinted.err)).Delivered
          (Streams.printed Execution.bothPrinted.out Execution.bothPrinted.err)) ∧
    Shuffle ["a", "", "b"] ["é"] (received Execution.bothPrinted.events) ∧
    ∃ forwarded, (Attempt.bothPrinted.report .simple .empty).lines =
        "Starting configuration run..." :: "Running ansible-playbook site.yml" ::
          (forwarded ++ ["Provisioning completed successfully in 1m10s"]) ∧
      Shuffle ["a", "é", "b"] ["No output for 60s (elapsed 1m01s), still running..."]
        forwarded := by
  have hstarted : Attempt.bothPrinted.started .simple "inventory.ini" .empty = .ok .bothPrinted :=
    rfl
  obtain ⟨hover, -, hshuffle, forwarded, hlines, hforwarded⟩ :=
    Attempt.lines_delivered (a := .bothPrinted) rfl hstarted
  have hout : Splitter.linesOf Execution.bothPrinted.out.flatten = ["a", "", "b"] := by
    decide +kernel
  have herr : Splitter.linesOf Execution.bothPrinted.err.flatten = ["é"] := by decide +kernel
  have hmasked : ((received Execution.bothPrinted.events).filter (!·.isEmpty)).map
      (Redactor.ofSecrets Inputs.empty.secrets).redact = ["a", "é", "b"] := by
    decide +kernel
  have hsilences : (silences Execution.bothPrinted.events).map (silenceLine .simple) =
      ["No output for 60s (elapsed 1m01s), still running..."] := by
    decide +kernel
  rw [hout, herr] at hshuffle
  rw [hmasked, hsilences] at hforwarded
  refine ⟨rfl, hstarted, hover, hshuffle, forwarded, ?_, hforwarded⟩
  rw [hlines]
  rfl

end Provisioner.Tool
