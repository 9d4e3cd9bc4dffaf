import Provisioner.Text.Lines
import Provisioner.Text.Utf8

/-!
# Splitting a stream of bytes into lines

A stream comes in chunks that may end inside a line, a line ending or a character. A line is
given once its line feed has come, without the carriage return in front of it; what is left at
the end of the stream is given last. Each line is decoded as a whole, so it does not matter where
the chunks were cut.
-/

namespace Provisioner

/-- The bytes of the line that has not ended yet. -/
structure Splitter where
  /-- The bytes, last first. -/
  pending : List UInt8
deriving DecidableEq, Repr

namespace Splitter

/-- Nothing read yet. -/
def start : Splitter := ⟨[]⟩

/-- The byte of a line feed. -/
def lineFeed : UInt8 := 0x0A

/-- A line, given last byte first, without the carriage return at its end. -/
def dropReturn : List UInt8 → List UInt8
  | [] => []
  | b :: line => if b = 0x0D then line else b :: line

/-- The text of a line that is given last byte first. -/
def lineOf (pending : List UInt8) : String :=
  String.ofList (Text.Utf8.decodeLossy (dropReturn pending).reverse)

/-- The work of `push`, with the lines completed so far, last first. -/
def pushFrom (pending : List UInt8) (done : List String) : List UInt8 → List String × Splitter
  | [] => (done.reverse, ⟨pending⟩)
  | b :: chunk =>
    if b = lineFeed then pushFrom [] (lineOf pending :: done) chunk
    else pushFrom (b :: pending) done chunk

/-- Reads a chunk and gives the lines that it completes. -/
def push (s : Splitter) (chunk : List UInt8) : List String × Splitter :=
  pushFrom s.pending [] chunk

/-- The line left at the end of the stream, if there is one. -/
def finish (s : Splitter) : Option String × Splitter :=
  if s.pending.isEmpty then (none, s) else (some (lineOf s.pending), start)

/-- Lines completed earlier stand in front. -/
theorem pushFrom_eq_append (pending : List UInt8) (done : List String) (chunk : List UInt8) :
    pushFrom pending done chunk =
      (done.reverse ++ (pushFrom pending [] chunk).1, (pushFrom pending [] chunk).2) := by
  induction chunk generalizing pending done with
  | nil => simp [pushFrom]
  | cons b chunk ih =>
    simp only [pushFrom]
    split
    · rw [ih [] (_ :: done), ih [] [_]]
      simp
    · exact ih (b :: pending) done

/-- Reading a chunk in two parts. -/
theorem push_append (s : Splitter) (a b : List UInt8) :
    s.push (a ++ b) = ((s.push a).1 ++ ((s.push a).2.push b).1, ((s.push a).2.push b).2) := by
  obtain ⟨pending⟩ := s
  simp only [push]
  induction a generalizing pending with
  | nil => simp [pushFrom]
  | cons x a ih =>
    simp only [List.cons_append, pushFrom]
    split
    · rw [pushFrom_eq_append [] [_] (a ++ b), ih, pushFrom_eq_append [] [_] a]
      simp
    · exact ih (x :: pending)

end Splitter

end Provisioner
