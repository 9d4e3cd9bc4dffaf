import Provisioner.Json.Parser
import Provisioner.Json.Record
import Provisioner.Machine.Basic

/-!
# Messages to viewers

A viewer gets one `init` message, then `log` messages, then one `status` message. A message is a
JSON object whose member `type` names its kind. Reading accepts what writing gives, and more:
other members, and the members by position behind the kind.
-/

namespace Provisioner

/-- How the word of a status is written. -/
def MachineStatus.toJson (status : MachineStatus) : Json.Value := .text status.word

/--
Reads a status: its word, or an object with that word as its only member, whose value is one of
those that stand for nothing.
-/
def MachineStatus.ofJson? (isNothing : Json.Value → Bool) : Json.Value → Option MachineStatus
  | .string (some word) => ofWord? word
  | .object [(some word, value)] => if isNothing value then ofWord? word else none
  | _ => none

/-- Reads a status from a text of its own. -/
def MachineStatus.ofText? (text : String) : Option MachineStatus :=
  match Json.parse .lenient text.toList with
  | .ok value => ofJson? Json.Value.isNull value
  | .error _ => none

namespace Snapshot

/-- The fields of a snapshot in their order. -/
def fieldNames : List String := ["id", "name", "address", "status", "credential_removed"]

/-- A snapshot as it is sent. -/
def toJson (s : Snapshot) : Json.Value :=
  .record [("id", .int s.id.toInt), ("name", .text s.name), ("address", .text s.address),
    ("status", s.status.toJson), ("credential_removed", .bool s.credentialRemoved)]

/-- Reads a snapshot. -/
def ofJson? (value : Json.Value) : Option Snapshot := do
  let fields ← value.record? fieldNames
  let id ← fields.required "id" Json.Value.int64?
  let name ← fields.required "name" Json.Value.text?
  let address ← fields.required "address" Json.Value.text?
  let status ← fields.required "status" (MachineStatus.ofJson? Json.Value.isBlank)
  let credentialRemoved ← fields.required "credential_removed" Json.Value.bool?
  some ⟨id, name, address, status, credentialRemoved⟩

end Snapshot

/-- A message to a viewer. -/
inductive Message where
  | init (machine : Snapshot)
  | log (line : String)
  | status (value : MachineStatus) (credentialRemoved : Bool)
deriving DecidableEq, Repr

namespace Message

/-- The word for the kind of a message. -/
def kind : Message → String
  | init _ => "init"
  | log _ => "log"
  | status _ _ => "status"

/-- The members of a message behind its kind. -/
def members : Message → List (String × Json.Value)
  | init machine => [("machine", machine.toJson)]
  | log line => [("line", .text line)]
  | status value credentialRemoved =>
    [("status", value.toJson), ("credential_removed", .bool credentialRemoved)]

/-- A message as it is sent. -/
def toJson (m : Message) : Json.Value := .record (("type", .text m.kind) :: m.members)

/-- The text of a message. -/
def text (m : Message) : String := m.toJson.render

/-- The names of the members of a message of some kind. -/
def memberNames? (kind : String) : Option (List String) :=
  if kind = "init" then some ["machine"]
  else if kind = "log" then some ["line"]
  else if kind = "status" then some ["status", "credential_removed"]
  else none

/-- Reads the members of a message of some kind. -/
def ofFields? (kind : String) (fields : Json.Record) : Option Message :=
  if kind = "init" then (fields.required "machine" Snapshot.ofJson?).map init
  else if kind = "log" then (fields.required "line" Json.Value.text?).map log
  else if kind = "status" then do
    let value ← fields.required "status" (MachineStatus.ofJson? Json.Value.isBlank)
    let credentialRemoved ← fields.required "credential_removed" Json.Value.bool?
    some (status value credentialRemoved)
  else none

/-- Reads a message whose members are given by name. -/
def ofMembers? (members : List (Option String × Json.Value)) : Option Message := do
  let (kinds, others) := members.partition (·.1 == some "type")
  match kinds with
  | [(_, .string (some kind))] =>
    let names ← memberNames? kind
    ofFields? kind (← Json.Record.ofMembers? names others)
  | _ => none

/-- Reads a message. -/
def ofJson? : Json.Value → Option Message
  | .object members => ofMembers? members
  | .array (.string (some kind) :: items) => do
    let names ← memberNames? kind
    if items.length = names.length then ofFields? kind ⟨true, names.zip items⟩ else none
  | _ => none

/-- Reads the text of a message. -/
def ofText? (text : String) : Option Message :=
  match Json.parse (.strict Json.maximalDepth) text.toList with
  | .ok value => ofJson? value
  | .error _ => none

end Message

end Provisioner
