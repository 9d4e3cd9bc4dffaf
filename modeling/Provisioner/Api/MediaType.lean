import Provisioner.Api.Header

/-!
# Media types

A media type is ASCII text: `type/subtype`, with an optional suffix behind a plus sign in the
subtype, and parameters behind semicolons. Only one question is asked of it: whether it is JSON. A
text that is no well-formed media type is not.
-/

namespace Provisioner.Api.MediaType

/-- The characters inside quotes. -/
def isQuotedChar (c : Char) : Bool := 0x20 ≤ c.toNat && c.toNat != 0x7F

/-- Where the reading of parameters stands. -/
inductive State where
  /-- In front of a name, where blanks may stand. -/
  | gap
  | name
  /-- Behind the equals sign. -/
  | value
  /-- Inside a value without quotes. -/
  | token
  /-- Behind the opening quote; whatever comes next belongs to the value. -/
  | quote
  | quoted
  /-- Behind the closing quote. -/
  | close
  | broken
deriving DecidableEq, Repr

/-- Reads one character of the parameters. -/
def State.push (s : State) (c : Char) : State :=
  match s with
  | gap => if c = ' ' then gap else if isTokenChar c then name else broken
  | name => if isTokenChar c then name else if c = '=' then value else broken
  | value => if c = '"' then quote else if isTokenChar c then token else broken
  | token => if isTokenChar c then token else if c = ';' then gap else broken
  | quote => if isQuotedChar c then quoted else broken
  | quoted => if c = '"' then close else if isQuotedChar c then quoted else broken
  | close => if c = ';' then gap else if c = ' ' then close else broken
  | broken => broken

/-- Whether the parameters may end here. -/
def State.isComplete : State → Bool
  | gap | value | token | close => true
  | name | quote | quoted | broken => false

/-- Whether what follows the first semicolon is well-formed. -/
def parametersOk (text : List Char) : Bool := (text.foldl State.push .gap).isComplete

/-- A text with ASCII letters in lower case. -/
def lower (text : List Char) : String := String.ofList (text.map Char.toLower)

/-- Whether a subtype is JSON, by itself or by its suffix. A plus sign at its start is none. -/
def subtypeIsJson (subtype : List Char) : Bool :=
  let suffix := (subtype.reverse.takeWhile (· ≠ '+')).reverse
  let stem := subtype.take (subtype.length - suffix.length - 1)
  if stem.isEmpty then lower subtype == "json" else lower stem == "json" || lower suffix == "json"

/-- Whether a media type is JSON. -/
def isJson (text : List Char) : Bool :=
  let main := text.takeWhile isTokenChar
  match text.drop main.length with
  | '/' :: rest =>
    let subtype := rest.takeWhile isTokenChar
    let parameters := match rest.drop subtype.length with
      | [] => true
      | ';' :: parameters => !subtype.isEmpty && parametersOk parameters
      | _ => false
    parameters && lower main == "application" && subtypeIsJson subtype
  | _ => false

end Provisioner.Api.MediaType
