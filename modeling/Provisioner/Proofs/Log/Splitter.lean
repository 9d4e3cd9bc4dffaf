import Provisioner.Log.Splitter
import Provisioner.Proofs.Text.Cut

/-!
# The lines of a stream, however it is cut into chunks

A splitter that has read some bytes has given the pieces of them between line feeds, all but the
last one, which it holds (`push_eq_splitOn`). The bytes count and not the chunks in which they come
(`pushAll_eq_push`), so what comes out is what cutting the whole stream gives.
-/

namespace Provisioner.Splitter

/-- The byte of a carriage return. -/
def carriageReturn : UInt8 := 0x0D

/-- The text of a line that may end in a carriage return. -/
def lineText (line : List UInt8) : String :=
  String.ofList (Text.Utf8.decodeLossy (Text.withoutFinal carriageReturn line))

/-- The lines of a stream of bytes. -/
def linesOf (bytes : List UInt8) : List String :=
  (Text.cutLines lineFeed carriageReturn bytes).map fun line =>
    String.ofList (Text.Utf8.decodeLossy line)

/-- Reads chunks one after the other and gives the lines that they complete. -/
def pushAll (s : Splitter) : List (List UInt8) → List String × Splitter
  | [] => ([], s)
  | chunk :: chunks =>
    let (lines, t) := s.push chunk
    let (more, u) := t.pushAll chunks
    (lines ++ more, u)

/-- The lines that come of a stream in chunks, from its beginning to its end. -/
def readAll (chunks : List (List UInt8)) : List String :=
  (start.pushAll chunks).1 ++ (start.pushAll chunks).2.finish.1.toList

/-- The lines that come of some bytes and the end of the stream behind them. -/
def toEnd (s : Splitter) (bytes : List UInt8) : List String :=
  (s.push bytes).1 ++ (s.push bytes).2.finish.1.toList

/-! ## Chunks -/

/-- Reading chunks one after the other is reading all of their bytes at once. -/
theorem pushAll_eq_push (s : Splitter) (chunks : List (List UInt8)) :
    s.pushAll chunks = s.push chunks.flatten := by
  induction chunks generalizing s with
  | nil => rfl
  | cons chunk chunks ih =>
    rw [List.flatten_cons, push_append, ← ih]
    rfl

/-- The lines of a first chunk come first, whatever is read behind it. -/
theorem toEnd_append (s : Splitter) (chunk bytes : List UInt8) :
    s.toEnd (chunk ++ bytes) = (s.push chunk).1 ++ (s.push chunk).2.toEnd bytes := by
  simp only [toEnd, push_append, List.append_assoc]

/-! ## Pieces between line feeds -/

theorem lineOf_eq (pending : List UInt8) : lineOf pending = lineText pending.reverse := by
  unfold lineOf lineText
  cases pending with
  | nil => rfl
  | cons b line =>
    rw [List.reverse_cons, dropReturn]
    split
    · next h => rw [h, ← carriageReturn, Text.withoutFinal_concat]
    · next h =>
      rw [Text.withoutFinal_concat_of_ne (x := carriageReturn) h, List.reverse_cons]

theorem finish_snd (s : Splitter) : s.finish.2 = start := by
  obtain ⟨pending⟩ := s
  cases pending <;> rfl

/-- What is left at the end of the stream is a line unless it is empty; then nothing is left. -/
theorem finish_of_pending (line : List UInt8) :
    finish ⟨line.reverse⟩ = (if line = [] then none else some (lineText line), start) := by
  unfold finish
  by_cases h : line = []
  · subst h
    rfl
  · rw [if_neg (by simpa using h), if_neg h, lineOf_eq, List.reverse_reverse]

/--
The pieces between line feeds are given, except the last one, which is kept. What was pending
belongs to the first piece.
-/
theorem push_eq_splitOn {s : Splitter} (h : lineFeed ∉ s.pending) (bytes : List UInt8) :
    ∃ front last, (s.pending.reverse ++ bytes).splitOn lineFeed = front ++ [last] ∧
      s.push bytes = (front.map lineText, ⟨last.reverse⟩) := by
  obtain ⟨pending⟩ := s
  simp only [push] at h ⊢
  induction bytes generalizing pending with
  | nil =>
    refine ⟨[], pending.reverse, ?_, ?_⟩
    · rw [List.append_nil, List.nil_append]
      exact List.splitOn_eq_singleton (by rwa [List.mem_reverse])
    · rw [List.reverse_reverse]
      rfl
  | cons b bytes ih =>
    by_cases hb : b = lineFeed
    · subst hb
      obtain ⟨front, last, hpieces, hpush⟩ := ih [] List.not_mem_nil
      refine ⟨pending.reverse :: front, last, ?_, ?_⟩
      · rw [List.splitOn_append_cons_self_of_not_mem (by rwa [List.mem_reverse]),
          List.cons_append, ← hpieces]
        rfl
      · rw [pushFrom, if_pos rfl, pushFrom_eq_append, hpush, List.map_cons, lineOf_eq]
        rfl
    · have hpending : lineFeed ∉ b :: pending := by
        rw [List.mem_cons, not_or]
        exact ⟨Ne.symm hb, h⟩
      have hnext := ih (b :: pending) hpending
      rw [List.reverse_cons, List.append_assoc, List.singleton_append] at hnext
      rwa [pushFrom, if_neg hb]

theorem linesOf_eq (bytes : List UInt8) :
    linesOf bytes = (Text.withoutFinal [] (bytes.splitOn lineFeed)).map lineText := by
  rw [linesOf, Text.cutLines, List.map_map]
  rfl

theorem toEnd_start (bytes : List UInt8) : start.toEnd bytes = linesOf bytes := by
  obtain ⟨front, last, hpieces, hpush⟩ :=
    push_eq_splitOn (s := start) List.not_mem_nil bytes
  replace hpieces : bytes.splitOn lineFeed = front ++ [last] := hpieces
  rw [toEnd, linesOf_eq, hpush, hpieces, finish_of_pending]
  by_cases h : last = []
  · subst h
    rw [Text.withoutFinal_concat]
    exact List.append_nil _
  · rw [Text.withoutFinal_concat_of_ne h, List.map_append, if_neg h]
    rfl

/-- The lines of a stream are given for it, whatever its chunks are. -/
theorem readAll_eq (chunks : List (List UInt8)) : readAll chunks = linesOf chunks.flatten := by
  rw [readAll, pushAll_eq_push]
  exact toEnd_start chunks.flatten

/--
**Chunks do not matter.** However a stream comes in chunks, the lines completed by them are the
pieces between its line feeds, without the last piece. That one is given at the end of the stream
just when it has a byte, and then the splitter is as at the start.
-/
theorem lines_of_chunks (chunks : List (List UInt8)) :
    ∃ front last, chunks.flatten.splitOn lineFeed = front ++ [last] ∧
      (start.pushAll chunks).1 = front.map lineText ∧
      (start.pushAll chunks).2.finish =
        (if last = [] then none else some (lineText last), start) := by
  obtain ⟨front, last, hpieces, hpush⟩ :=
    push_eq_splitOn (s := start) List.not_mem_nil chunks.flatten
  refine ⟨front, last, hpieces, ?_, ?_⟩
  · rw [pushAll_eq_push, hpush]
  · rw [pushAll_eq_push, hpush, finish_of_pending]

/-- A carriage return behind the last line feed is a line, although one without text. -/
example : (start.pushAll [[0x61, 0x0D], [], [0x0A, 0x0D]]).1 = ["a"] ∧
    (start.pushAll [[0x61, 0x0D], [], [0x0A, 0x0D]]).2.finish = (some "", start) := by
  decide +kernel

end Provisioner.Splitter
