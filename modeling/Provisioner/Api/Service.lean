import Provisioner.Api.Cors
import Provisioner.Api.Handshake
import Provisioner.Api.MediaType
import Provisioner.Api.Query
import Provisioner.Api.Route
import Provisioner.Api.Task

/-!
# From requests to responses

A request is refused at once or becomes a task; what the task comes to becomes a response. In the
end each response gets the headers that all of them have.
-/

namespace Provisioner.Api

/-- The greatest size of a body, in bytes. -/
def bodyLimit : Nat := 2 * 1024 * 1024

/-- Whether the body of a request is said to be JSON. -/
def Request.hasJson (r : Request) : Bool :=
  ((r.header? "content-type").bind Header.asciiText?).any MediaType.isJson

/-- The methods of the route of a request, if that of the request is none of them. -/
def Request.allow? (r : Request) : Option String :=
  (Route.ofPath? r.address.path).bind fun route =>
    if (Endpoint.of? route r.method).isNone then some route.allow else none

/-- What a request becomes. -/
inductive Start where
  | response (r : Response)
  | task (t : Task)

namespace Start

/-- The request is refused with a notice. -/
def refuse (status : Nat) : Start := .response (.ofBody status .notice)

/-- Goes on with the id in a path, if it is one. -/
def withId (raw : List Char) (next : MachineId → Task) : Start :=
  match pathId? raw with
  | some id => .task (next id)
  | none => refuse 400

/-- The status that answers a body that cannot be read. -/
def readErrorStatus : Json.ReadError → Nat
  | .malformed => 400
  | .unfit => 422

/-- A request to create a machine, for which a name was generated in case it gives none. -/
def create (request : Request) (generatedName : String) : Start :=
  if !request.hasJson then refuse 415
  else if bodyLimit < request.body.length then refuse 413
  else
    match CreateRequest.ofBody request.body with
    | .ok wanted => .task (.ofCreateRequest wanted generatedName)
    | .error e => refuse (readErrorStatus e)

/-- A request for the lines of a log. -/
def log (request : Request) (raw : List Char) : Start :=
  match pathId? raw, Query.after? request.address.query with
  | some id, some after => .task (.findingLog id after.toInt)
  | _, _ => refuse 400

/-- The id of the machine whose log is to be streamed. -/
def streamId (raw : String) : Except Failure MachineId :=
  match (Text.int64? raw.toList).filter (0 < ·) with
  | some id => .ok id
  | none => .error (.badRequest ("Invalid machine id: " ++ raw))

/-- A request for a stream. -/
def stream (request : Request) (raw : List Char) : Start :=
  match request.handshakeFault? with
  | some fault => refuse fault.status
  | none =>
    match pathText? raw with
    | none => refuse 400
    | some text =>
      match streamId text with
      | .ok id => .task (.opening id)
      | .error failure => .task (.fail failure)

/-- What a request to an endpoint becomes. -/
def ofEndpoint (request : Request) (generatedName : String) : Endpoint → Start
  | .health => .task .checkingHealth
  | .list => .task .listing
  | .create => create request generatedName
  | .show id => withId id .showing
  | .delete id => withId id .finding
  | .log id => log request id
  | .reprovision id => withId id .resetting
  | .stream id => stream request id

/-- What a request becomes. -/
def ofRequest (request : Request) (generatedName : String) : Start :=
  match Route.ofPath? request.address.path with
  | none => .response (.ofBody 404 .empty)
  | some route =>
    match Endpoint.of? route request.method with
    | none => .response (.ofBody 405 .empty)
    | some endpoint => ofEndpoint request generatedName endpoint

end Start

/-- The state of the service as it is shown. -/
def Health.toJson (h : Health) : Json.Value :=
  .record [("status", .text (if h.databaseHealthy then "ok" else "degraded")),
    ("version", .text h.version), ("db_healthy", .bool h.databaseHealthy),
    ("streaming_machines", .int h.streamingMachines), ("draining", .bool h.draining)]

namespace Response

/-- The response to what a task came to. -/
def ofAnswer : Answer → Response
  | .failed failure => ofFailure failure
  | .accepted m => ofData 202 m.toJson
  | .machines list => ofData 200 (.array (list.map Machine.toJson))
  | .machine m => ofData 200 m.toJson
  | .log entries => ofData 200 (.array (entries.map LogEntry.toJson))
  | .deleted id => ofData 200 (.record [("id", .int id.toInt), ("deleted", .bool true)])
  | .health report =>
    ofBody (if report.databaseHealthy && !report.draining then 200 else 503) (.json report.toJson)
  | .stream _ _ => ofBody 101 .empty

/-- The header for the methods of a route that does not have that of the request. -/
def allowHeaders (request : Request) : List Header :=
  (request.allow?.map (Header.ofText "allow")).toList

/-- The answer to a request that only asks what is allowed. -/
def preflight (cors : Cors) (request : Request) : Response :=
  ⟨200, cors.headers request ++ Cors.preflightHeaders ++ allowHeaders request, .empty⟩

/--
The response as it is sent: without its body if only the headers are asked for, and with the id of
the request, which is the caller's own if it gives one.
-/
def complete (r : Response) (cors : Cors) (request : Request) (newId : String) : Response :=
  if request.method = .options then preflight cors request
  else
    let r := if request.method = .head then r.withoutBody else r
    let id := match request.header? "x-request-id" with
      | some value => ⟨"x-request-id", value⟩
      | none => .ofText "x-request-id" newId
    { r with headers := cors.headers request ++ r.headers ++ allowHeaders request ++ [id] }

end Response

end Provisioner.Api
