import Provisioner.Text.Digits
import Provisioner.Text.Utf8

/-!
# Parameters of a request

A path holds percent-encoded parameters: a percent sign followed by two hexadecimal digits stands
for one byte, and any other percent sign for itself. A query holds pairs `name=value` between
ampersands, in which a plus sign stands for a blank as well.
-/

namespace Provisioner.Api

/-- The bytes that a percent-encoded text stands for. -/
def percentDecode : List Char → List UInt8
  | [] => []
  | '%' :: a :: b :: text =>
    match Text.hexDigit? a, Text.hexDigit? b with
    | some high, some low => UInt8.ofNat (high * 16 + low) :: percentDecode text
    | _, _ => String.utf8EncodeChar '%' ++ percentDecode (a :: b :: text)
  | c :: text => String.utf8EncodeChar c ++ percentDecode text

/-- The text of a parameter in a path, unless it is not UTF-8. -/
def pathText? (raw : List Char) : Option String :=
  (Text.Utf8.decodeStrict? (percentDecode raw)).map String.ofList

/-- The id in a path, if the parameter is a number of 64 bits. -/
def pathId? (raw : List Char) : Option Int64 :=
  (pathText? raw).bind fun text => Text.int64? text.toList

namespace Query

/-- The text of a name or value in a query. -/
def decode (raw : List Char) : String :=
  let spaced := raw.map fun c => if c = '+' then ' ' else c
  String.ofList (Text.Utf8.decodeLossy (percentDecode spaced))

/-- A name with its value, which is empty if there is no equals sign. -/
def pair (raw : List Char) : String × String :=
  let name := raw.takeWhile (· ≠ '=')
  (decode name, decode (raw.drop (name.length + 1)))

/-- The pairs of a query. -/
def pairs (raw : List Char) : List (String × String) :=
  ((raw.splitOn '&').filter (!·.isEmpty)).map pair

/-- The cursor in a query: zero if none is given, nothing if it is given twice or is no number. -/
def after? (raw : List Char) : Option Int64 :=
  match (pairs raw).filter (·.1 == "after") with
  | [] => some 0
  | [(_, value)] => Text.int64? value.toList
  | _ => none

end Query

end Provisioner.Api
