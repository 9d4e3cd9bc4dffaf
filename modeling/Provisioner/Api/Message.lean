import Provisioner.Api.Address
import Provisioner.Api.Failure
import Provisioner.Api.Header

/-!
# Requests and responses
-/

namespace Provisioner.Api

/-- The methods that the service tells apart. -/
inductive Method where
  | get
  | head
  | post
  | delete
  | options
  | other (name : String)
deriving DecidableEq, Repr

/-- The method of some name. -/
def Method.ofName (name : String) : Method :=
  if name = "GET" then get
  else if name = "HEAD" then head
  else if name = "POST" then post
  else if name = "DELETE" then delete
  else if name = "OPTIONS" then options
  else other name

/-- A request. -/
structure Request where
  method : Method
  address : Address
  headers : List Header
  body : List UInt8
  /-- Whether the connection can be turned into a stream. -/
  upgradable : Bool

namespace Request

/-- A request of its parts, if they can be sent. -/
def ofParts? (method : String) (uri : List Char) (headers : List Header) (body : List UInt8)
    (upgradable : Bool) : Option Request :=
  if isToken method.toList && headers.all Header.isWellFormed then
    (Address.ofUri? uri).map fun address =>
      { method := .ofName method, address, headers, body, upgradable }
  else none

/-- The first value of a header. -/
def header? (r : Request) (name : String) : Option (List UInt8) :=
  (r.headers.find? (·.isNamed name)).map (·.value)

end Request

/-- The body of a response. -/
inductive Body where
  | empty
  /-- A notice to a human; what it says is left open. -/
  | notice
  | json (value : Json.Value)
deriving Repr

/-- The media type of a body. -/
def Body.mediaType? : Body → Option String
  | empty => none
  | notice => some "text/plain; charset=utf-8"
  | json _ => some "application/json"

/-- A response. -/
structure Response where
  status : Nat
  headers : List Header
  body : Body
deriving Repr

namespace Response

/-- A response with the header for the kind of its body. -/
def ofBody (status : Nat) (body : Body) : Response :=
  ⟨status, (body.mediaType?.map (Header.ofText "content-type")).toList, body⟩

/-- The answer to a failure. -/
def ofFailure (f : Failure) : Response := ofBody f.rejection.status (.json f.rejection.toJson)

/-- Data in its envelope. -/
def ofData (status : Nat) (value : Json.Value) : Response :=
  ofBody status (.json (.record [("data", value)]))

/-- The answer to a request that took too long. -/
def timedOut : Response := ofBody 408 .empty

/-- The answer to a request whose handling broke down. -/
def brokenDown : Response := ofBody 500 .notice

/-- A response without its body, as the answer to a request for its headers. -/
def withoutBody (r : Response) : Response := { r with body := .empty }

end Response

end Provisioner.Api
