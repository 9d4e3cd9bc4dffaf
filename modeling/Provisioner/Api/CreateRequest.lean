import Provisioner.Inputs.Stored
import Provisioner.Machine.Name
import Provisioner.Text.Blank
import Provisioner.Text.Utf8

/-!
# The request to create a machine

The body is a JSON object with an optional `name` and the inputs beside it. It is read from front to
back, and the first fault counts: the name is looked at where it stands, the inputs once the object
has ended.
-/

namespace Provisioner.Api

/-- What is asked for. -/
structure CreateRequest where
  name : Option String
  inputs : Inputs
deriving DecidableEq, Repr

namespace CreateRequest

/-- The tokens of a body. Bytes that are not UTF-8 are a fault where they stand. -/
def bodyTokens (body : List UInt8) : List Json.Token :=
  let (text, whole) := Text.Utf8.decodeStart body
  if whole then Json.tokens text else Json.tokens text ++ [.malformed]

/-- The fault of a token where a value of another kind is wanted. -/
def unfitToken : Json.Token → Json.ReadError
  | .null | .bool _ | .openBrace | .openBracket | .string (some _) => .unfit
  | .number n => if n.exceedsDouble then .malformed else .unfit
  | _ => .malformed

/-- Reads the value of the name. -/
def readName : List Json.Token → Except Json.ReadError (Option String × List Json.Token)
  | .null :: rest => .ok (none, rest)
  | .string (some name) :: rest => .ok (some name, rest)
  | token :: _ => .error (unfitToken token)
  | [] => .error .malformed

/-- Members read so far: the name if it was given, and the others, last first. -/
structure Members where
  name : Option (Option String)
  others : List (Option String × Json.Value)

/-- The request that all members make. -/
def ofMembers (m : Members) : Except Json.ReadError CreateRequest :=
  match (Json.Record.ofMembers? Inputs.fieldNames m.others.reverse).bind Inputs.ofFields? with
  | some inputs => .ok ⟨m.name.join, inputs⟩
  | none => .error .unfit

/-- How a member's other values are read. -/
def memberReading : Json.Reading := .strict (Json.maximalDepth - 1)

/-- Reads the value behind a member's name. -/
def readMember (m : Members) (name : String) (ts : List Json.Token) :
    Except Json.ReadError (Members × List Json.Token) :=
  if name = "name" then
    if m.name.isSome then .error .unfit
    else
      match ts with
      | .colon :: ts => (readName ts).map fun (value, ts) => ({ m with name := some value }, ts)
      | _ => .error .malformed
  else
    match ts with
    | .colon :: ts =>
      (Json.readValue memberReading ts).map fun (value, ts) =>
        ({ m with others := (some name, value) :: m.others }, ts)
    | _ => .error .malformed

theorem readName_length_lt {ts rest : List Json.Token} {v : Option String}
    (h : readName ts = .ok (v, rest)) : rest.length < ts.length := by
  cases ts with
  | nil => simp [readName] at h
  | cons t ts =>
    cases t with
    | null => simp only [readName, Except.ok.injEq, Prod.mk.injEq] at h; simp [h.2]
    | string text =>
      cases text with
      | some name => simp only [readName, Except.ok.injEq, Prod.mk.injEq] at h; simp [h.2]
      | none => simp [readName] at h
    | _ => simp [readName] at h

/-- Reading a member takes tokens. -/
theorem readMember_length_lt {m m' : Members} {name : String} {ts rest : List Json.Token}
    (h : readMember m name ts = .ok (m', rest)) : rest.length < ts.length := by
  unfold readMember at h
  split at h
  · split at h
    · simp at h
    · split at h
      · rename_i ts'
        cases hr : readName ts' with
        | error e => simp [hr, Except.map] at h
        | ok r =>
          obtain ⟨v, rest'⟩ := r
          simp only [hr, Except.map, Except.ok.injEq, Prod.mk.injEq] at h
          have := readName_length_lt hr
          simp only [← h.2, List.length_cons]
          omega
      · simp at h
  · split at h
    · rename_i ts'
      cases hr : Json.readValue memberReading ts' with
      | error e => simp [hr, Except.map] at h
      | ok r =>
        obtain ⟨v, rest'⟩ := r
        simp only [hr, Except.map, Except.ok.injEq, Prod.mk.injEq] at h
        have := Json.Parser.run_length_lt hr
        simp only [← h.2, List.length_cons]
        omega
    · simp at h

/-- What is behind the object must be nothing. -/
def finish (m : Members) (ts : List Json.Token) : Except Json.ReadError CreateRequest :=
  match ofMembers m with
  | .error e => .error e
  | .ok request => if ts.isEmpty then .ok request else .error .malformed

/-- Reads the members from the name of the next one on. -/
def readMembers (m : Members) (ts : List Json.Token) : Except Json.ReadError CreateRequest :=
  match ts with
  | .string (some name) :: ts =>
    match _h : readMember m name ts with
    | .error e => .error e
    | .ok (m, .comma :: ts) => readMembers m ts
    | .ok (m, .closeBrace :: ts) => finish m ts
    | .ok (_, _) => .error .malformed
  | _ => .error .malformed
termination_by ts.length
decreasing_by
  have := readMember_length_lt _h
  simp only [List.length_cons] at this ⊢
  omega

/-- Reads the tokens of a body. -/
def ofTokens : List Json.Token → Except Json.ReadError CreateRequest
  | .openBrace :: .closeBrace :: ts => finish ⟨none, []⟩ ts
  | .openBrace :: ts => readMembers ⟨none, []⟩ ts
  | token :: _ => .error (unfitToken token)
  | [] => .error .malformed

/-- Reads a body. -/
def ofBody (body : List UInt8) : Except Json.ReadError CreateRequest := ofTokens (bodyTokens body)

/-- The name that is asked for, without the blanks around it, unless it is empty. -/
def wantedName (request : CreateRequest) : Option String :=
  (request.name.map fun name => String.ofList (Text.trim name.toList)).filter (· ≠ "")

end CreateRequest

end Provisioner.Api
