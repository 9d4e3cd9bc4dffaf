import Provisioner.Cloud.Provider
import Provisioner.Config.Hetzner
import Provisioner.Json.Parser
import Provisioner.Json.Record

/-!
# The client of the cloud provider

The provider is asked by requests that are answered with JSON. To make a machine it begins an
*action*, which is asked for again and again until it has ended; the machine is then asked for once
more, because its address may be given only then.

The replies are given from outside, the n-th to the n-th request, each with the time that it took.
The client waits two seconds before each look at an action, and looks no more once five minutes have
passed, so it makes at most 150 such requests (`poll` recurses on the time that is left).
-/

namespace Provisioner.Hetzner

/-- A request to the provider. -/
structure Request where
  method : String
  /-- The path behind the address of the provider. -/
  path : String
  body : Option Json.Value

/-- What comes of a request. -/
inductive Reply where
  /-- There is no answer. -/
  | none (reason : String)
  | answer (status : Nat) (body : List UInt8)
deriving DecidableEq, Repr

/-- A reply and the milliseconds that it took. Finer spans of time cannot be given. -/
structure TimedReply where
  reply : Reply
  took : Nat
deriving DecidableEq, Repr

/-! ## What the provider tells -/

/-- A machine as the provider tells of it. -/
structure ServerInfo where
  id : MachineId
  name : String
  address : Option String
deriving DecidableEq, Repr

/-- An action as the provider tells of it. -/
structure Action where
  id : Int64
  status : String
  error : Option String
deriving DecidableEq, Repr

/-- Reads the address inside `ipv4`. -/
def readAddress (value : Json.Value) : Option String := do
  (← value.record? ["ip"]).required "ip" Json.Value.text?

/-- Reads the address inside `public_net`. -/
def readNetwork (value : Json.Value) : Option (Option String) := do
  (← value.record? ["ipv4"]).optional "ipv4" (Json.Value.nullable? readAddress)

/-- Reads a machine. An empty address is none. -/
def readServer (value : Json.Value) : Option ServerInfo := do
  let fields ← value.record? ["id", "name", "public_net"]
  let id ← fields.required "id" Json.Value.int64?
  let name ← fields.required "name" Json.Value.text?
  let address ← fields.required "public_net" readNetwork
  some ⟨id, name, address.filter (· ≠ "")⟩

/-- Reads the message inside `error`. -/
def readActionError (value : Json.Value) : Option String := do
  (← value.record? ["message"]).required "message" Json.Value.text?

/-- Reads an action. -/
def readAction (value : Json.Value) : Option Action := do
  let fields ← value.record? ["id", "status", "error"]
  let id ← fields.required "id" Json.Value.int64?
  let status ← fields.required "status" Json.Value.text?
  let error ← fields.optional "error" (Json.Value.nullable? readActionError)
  some ⟨id, status, error⟩

/-- Reads the answer about a machine. -/
def readServerAnswer (value : Json.Value) : Option ServerInfo := do
  (← value.record? ["server"]).required "server" readServer

/-- Reads the answer about an action. -/
def readActionAnswer (value : Json.Value) : Option Action := do
  (← value.record? ["action"]).required "action" readAction

/-- Reads the answer about a machine that is being made. -/
def readCreationAnswer (value : Json.Value) : Option (ServerInfo × Action) := do
  let fields ← value.record? ["server", "action"]
  some (← fields.required "server" readServer, ← fields.required "action" readAction)

/-! ## Requests and replies -/

/-- The failure of an answer that cannot be read. -/
def undecodable : ProviderFailure := .request "error decoding response body" true

/-- The body of an answer, unless the provider refuses or gives none. -/
def Reply.success : Reply → Except ProviderFailure (List UInt8)
  | .none reason => .error (.request reason false)
  | .answer status body =>
    if 200 ≤ status ∧ status < 300 then .ok body
    else .error (.refused status (String.ofList (Text.Utf8.decodeLossy body)))

/-- Reads the body of an answer. -/
def Reply.read (reply : Reply) (read : Json.Value → Option α) : Except ProviderFailure α := do
  let body ← reply.success
  match Json.parseBytes .lenient body with
  | .ok value =>
    let some result := read value | throw undecodable
    return result
  | .error _ => throw undecodable

/-- The request to make a machine. -/
def creationRequest (config : Config.Hetzner) (name : String) : Request :=
  ⟨"POST", "/servers", some (.record [("image", .text config.image), ("location", .text config.location),
    ("name", .text name), ("server_type", .text config.serverType),
    ("ssh_keys", .array [.int config.sshKeyId.toInt])])⟩

/-- The request to look at an action. -/
def actionRequest (id : Int64) : Request := ⟨"GET", s!"/actions/{id}", .none⟩

/-- The request to look at a machine. -/
def serverRequest (id : MachineId) : Request := ⟨"GET", s!"/servers/{id}", .none⟩

/-- The request to delete a machine. -/
def deletionRequest (id : MachineId) : Request := ⟨"DELETE", s!"/servers/{id}", .none⟩

/-! ## Waiting for an action -/

/-- How long to wait before an action is looked at, in milliseconds. -/
def pollInterval : Nat := 2000

/-- How long an action may take, in milliseconds. -/
def actionLimit : Nat := 300000

/-- What came of waiting for an action. -/
structure PollReport where
  result : Except ProviderFailure Unit
  /-- The requests that were made. -/
  requests : List Request
  /-- How long it took. -/
  elapsed : Nat

/-- How an action has ended, if it has. -/
def Action.ending? (action : Action) : Option (Except ProviderFailure Unit) :=
  if action.status = "success" then some (.ok ())
  else if action.status = "error" then
    some (.error (.actionFailed action.id (action.error.getD "unknown error")))
  else .none

/--
Waits for an action when `elapsed` milliseconds have passed; the next request is the `next`-th. An
ended action counts however late it is told of.
-/
def poll (replies : Nat → TimedReply) (next elapsed : Nat) (action : Action) : PollReport :=
  match action.ending? with
  | some result => ⟨result, [], elapsed⟩
  | .none =>
    if h : elapsed < actionLimit then
      let reply := replies next
      let later := elapsed + pollInterval + reply.took
      match reply.reply.read readActionAnswer with
      | .error failure => ⟨.error failure, [actionRequest action.id], later⟩
      | .ok newer =>
        let rest := poll replies (next + 1) later newer
        { rest with requests := actionRequest action.id :: rest.requests }
    else ⟨.error (.actionUnfinished action.id (actionLimit / 1000)), [], elapsed⟩
termination_by actionLimit - elapsed
decreasing_by
  simp only [pollInterval, actionLimit] at h ⊢
  omega

/-! ## Making and deleting machines -/

/-- What came of asking for something. -/
structure Report (α : Type) where
  result : Except ProviderFailure α
  /-- The machine that the provider has made, whatever the result. -/
  made : Option MachineId
  /-- The requests that were made. -/
  requests : List Request
  /-- How long it took, in milliseconds. -/
  elapsed : Nat

/-- The machine that a look at it shows. -/
def fetched (reply : TimedReply) : Except ProviderFailure Server := do
  let info ← reply.reply.read readServerAnswer
  let some address := info.address | throw (.noAddress info.id)
  return ⟨info.id, info.name, address⟩

/-- Makes a machine. -/
def create (config : Config.Hetzner) (name : String) (replies : Nat → TimedReply) : Report Server :=
  let first := replies 0
  let asked := creationRequest config name
  match first.reply.read readCreationAnswer with
  | .error failure => ⟨.error failure, .none, [asked], first.took⟩
  | .ok (info, action) =>
    let waited := poll replies 1 0 action
    let requests := asked :: waited.requests
    match waited.result with
    | .error failure => ⟨.error failure, some info.id, requests, first.took + waited.elapsed⟩
    | .ok () =>
      let last := replies requests.length
      ⟨fetched last, some info.id, requests ++ [serverRequest info.id],
        first.took + waited.elapsed + last.took⟩

/-- Deletes a machine. -/
def delete (id : MachineId) (replies : Nat → TimedReply) : Report Unit :=
  let reply := replies 0
  ⟨reply.reply.success.map fun _ => (), .none, [deletionRequest id], reply.took⟩

end Provisioner.Hetzner
