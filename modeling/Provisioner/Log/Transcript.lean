import Provisioner.Log.Redactor
import Provisioner.Text.Lines

/-!
# The transcript of a run

The lines that the configuration tool prints are kept as one text, each with a line feed. Once
the text is larger than four mebibytes its older half is dropped, at the first boundary between
characters that leaves at most two mebibytes.

When the tool fails, the last lines of the transcript are traced, with the secrets masked.
-/

namespace Provisioner.Transcript

/-- How many bytes a transcript may have. -/
def limit : Nat := 4 * 1024 * 1024

/-- How many bytes are kept at most when older text is dropped. -/
def kept : Nat := limit / 2

/-- What is left of a text after its first characters, just enough of them to make `n` bytes. -/
def dropBytes : Nat → List Char → List Char
  | 0, text => text
  | _ + 1, [] => []
  | n + 1, c :: text => dropBytes (n + 1 - c.utf8Size) text

/-- A text without its older part if it is too large. -/
def bounded (text : String) : String :=
  if limit < text.utf8ByteSize then
    String.ofList (dropBytes (text.utf8ByteSize - kept) text.toList)
  else text

/-- A transcript with one more line. -/
def append (transcript line : String) : String := bounded (transcript ++ line ++ "\n")

/-- The transcript of some lines. -/
def ofLines (lines : List String) : String := lines.foldl append ""

/-- How many lines are traced. -/
def tailLength : Nat := 40

/-- The lines of the tail of a transcript. -/
def tailLines (transcript : String) (redactor : Redactor) : List String :=
  let lines := Text.lines transcript.toList
  (lines.drop (lines.length - tailLength)).map fun line => redactor.redact (String.ofList line)

/-- The tail of a transcript. -/
def tail (transcript : String) (redactor : Redactor) : String :=
  String.intercalate "\n" (tailLines transcript redactor)

end Provisioner.Transcript
