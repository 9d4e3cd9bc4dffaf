import Provisioner.Json.Magnitude
import Provisioner.Json.Value

/-!
# Reading JSON values

The parser is a machine with a stack of the arrays and objects that are still open; it takes one
token at a time. It reads in one of two ways:

* *strictly*: every string must be a text, every number must fit a 64-bit float, and only so many
  arrays and objects may be open at once;
* *leniently*: none of that is asked, so that parts nobody looks at may be anything well-formed, and
  a text given by its bytes need not be UTF-8 inside strings that nobody looks at.

Whichever fault stands first in the text is the one that is reported.
-/

namespace Provisioner.Json

/-- Why a text cannot be read as what is wanted. -/
inductive ReadError where
  /-- It is not JSON. -/
  | malformed
  /-- It is JSON up to here, but of another form. -/
  | unfit
deriving DecidableEq, Repr

/-- How a text is read. -/
inductive Reading where
  /-- With at most `depth` arrays and objects open at once. -/
  | strict (depth : Nat)
  | lenient
deriving DecidableEq, Repr

/-- How many arrays and objects a strictly read text may have open at once. -/
def maximalDepth : Nat := 127

/-- Whether a number may be read. -/
def Reading.allowsNumber : Reading → Number → Bool
  | .strict _, n => !n.exceedsDouble
  | .lenient, _ => true

/-- Whether a string may be read. -/
def Reading.allowsString : Reading → Option String → Bool
  | .strict _, text => text.isSome
  | .lenient, _ => true

/-- An array or object that is still open. -/
inductive Frame where
  /-- An array with its items, last first. -/
  | array (items : List Value)
  /-- An object with its members, last first, and the name of the member being read. -/
  | object (members : List (Option String × Value)) (name : Option String)
deriving Repr

/-- Whether an array or object may be opened inside those that are open. -/
def Reading.allowsInside : Reading → List Frame → Bool
  | .strict depth, frames => frames.length < depth
  | .lenient, _ => true

/-- What the parser waits for. -/
inductive Want where
  | value
  /-- A value, or the end of an array that has no item yet. -/
  | firstItem
  | name
  /-- A name, or the end of an object that has no member yet. -/
  | firstName
  | colon
  /-- A comma, or the end of the innermost array or object. -/
  | separator
deriving DecidableEq, Repr

/-- The parser inside a value. -/
structure Parser where
  frames : List Frame
  want : Want
deriving Repr

/-- What a token leads to. -/
inductive Progress where
  | continued (parser : Parser)
  | finished (value : Value)
  | failed

namespace Parser

/-- In front of a value. -/
def start : Parser := ⟨[], .value⟩

/-- A value inside the open `frames` is complete. -/
def complete (frames : List Frame) (value : Value) : Progress :=
  match frames with
  | [] => .finished value
  | .array items :: frames => .continued ⟨.array (value :: items) :: frames, .separator⟩
  | .object members name :: frames =>
    .continued ⟨.object ((name, value) :: members) none :: frames, .separator⟩

/-- The innermost array ends. -/
def closeArray (frames : List Frame) : Progress :=
  match frames with
  | .array items :: frames => complete frames (.array items.reverse)
  | _ => .failed

/-- The innermost object ends. -/
def closeObject (frames : List Frame) : Progress :=
  match frames with
  | .object members _ :: frames => complete frames (.object members.reverse)
  | _ => .failed

/-- A token where a value is wanted. -/
def pushValue (reading : Reading) (frames : List Frame) (token : Token) : Progress :=
  match token with
  | .null => complete frames .null
  | .bool value => complete frames (.bool value)
  | .number value =>
    if reading.allowsNumber value then complete frames (.number value) else .failed
  | .string text => if reading.allowsString text then complete frames (.string text) else .failed
  | .openBracket =>
    if reading.allowsInside frames then .continued ⟨.array [] :: frames, .firstItem⟩
    else .failed
  | .openBrace =>
    if reading.allowsInside frames then .continued ⟨.object [] none :: frames, .firstName⟩
    else .failed
  | _ => .failed

/-- A token where the name of a member is wanted. -/
def pushName (reading : Reading) (frames : List Frame) (token : Token) : Progress :=
  match token, frames with
  | .string text, .object members _ :: frames =>
    if reading.allowsString text then .continued ⟨.object members text :: frames, .colon⟩
    else .failed
  | _, _ => .failed

/-- Takes one token. -/
def push (reading : Reading) (p : Parser) (token : Token) : Progress :=
  match p.want, token with
  | .value, token => pushValue reading p.frames token
  | .firstItem, .closeBracket => closeArray p.frames
  | .firstItem, token => pushValue reading p.frames token
  | .name, token => pushName reading p.frames token
  | .firstName, .closeBrace => closeObject p.frames
  | .firstName, token => pushName reading p.frames token
  | .colon, .colon => .continued ⟨p.frames, .value⟩
  | .colon, _ => .failed
  | .separator, .closeBracket => closeArray p.frames
  | .separator, .closeBrace => closeObject p.frames
  | .separator, .comma =>
    match p.frames with
    | .array _ :: _ => .continued ⟨p.frames, .value⟩
    | .object _ _ :: _ => .continued ⟨p.frames, .name⟩
    | [] => .failed
  | .separator, _ => .failed

/-- Reads the rest of a value, and gives it with the tokens behind it. -/
def run (reading : Reading) (p : Parser) : List Token → Except ReadError (Value × List Token)
  | [] => .error .malformed
  | token :: rest =>
    match p.push reading token with
    | .continued p => run reading p rest
    | .finished value => .ok (value, rest)
    | .failed => .error .malformed

/-- Reading takes at least one token. -/
theorem run_length_lt {reading : Reading} {p : Parser} {ts rest : List Token} {v : Value}
    (h : run reading p ts = .ok (v, rest)) : rest.length < ts.length := by
  induction ts generalizing p with
  | nil => simp [run] at h
  | cons t ts ih =>
    simp only [run] at h
    split at h
    · exact Nat.lt_succ_of_lt (ih h)
    · simp only [Except.ok.injEq, Prod.mk.injEq] at h
      simp [h.2]
    · simp at h

end Parser

/-- Reads one value from the front of some tokens. -/
def readValue (reading : Reading) (ts : List Token) : Except ReadError (Value × List Token) :=
  Parser.start.run reading ts

/-- Reads all of some tokens as one value. -/
def parseTokens (reading : Reading) (ts : List Token) : Except ReadError Value :=
  match readValue reading ts with
  | .ok (value, []) => .ok value
  | .ok (_, _ :: _) => .error .malformed
  | .error e => .error e

/-- Reads a whole text as one value. -/
def parse (reading : Reading) (text : List Char) : Except ReadError Value :=
  parseTokens reading (tokens text)

/-- Reads the whole text that is given by its bytes as one value. -/
def parseBytes (reading : Reading) (bytes : List UInt8) : Except ReadError Value :=
  parseTokens reading (tokensOfBytes bytes)

end Provisioner.Json
