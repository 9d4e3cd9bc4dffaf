import Provisioner.Api.Message

/-!
# Requests from pages of other origins

Pages of a few origins may make requests, with credentials. An origin must be the same, byte by
byte, as one of those that were set up. A request with the method `OPTIONS` only asks what is
allowed.
-/

namespace Provisioner.Api

/-- The origins whose pages may make requests. -/
structure Cors where
  origins : List String
deriving DecidableEq, Repr

namespace Cors

/-- Why origins cannot be set up. -/
inductive Fault where
  /-- This is no value of a header. -/
  | invalidOrigin (origin : String)
  /-- An asterisk is no origin. -/
  | wildcard
deriving DecidableEq, Repr

/-- The message of a fault. -/
def Fault.message : Fault → String
  | invalidOrigin origin => "Invalid CORS origin '" ++ origin ++ "'"
  | wildcard =>
    "Wildcard origin (\x60*\x60) cannot be passed to \x60AllowOrigin::list\x60. " ++
      "Use \x60AllowOrigin::any()\x60 instead"

/-- The bytes of an origin. -/
def bytes (origin : String) : List UInt8 := Text.Utf8.encode origin.toList

/-- Sets up the origins. -/
def ofOrigins (origins : List String) : Except Fault Cors :=
  match origins.find? fun origin => !(bytes origin).all Header.isValueByte with
  | some origin => .error (.invalidOrigin origin)
  | none => if origins.contains "*" then .error .wildcard else .ok ⟨origins⟩

/-- The headers that every response has. -/
def headers (cors : Cors) (request : Request) : List Header :=
  let origin := match request.header? "origin" with
    | some origin =>
      if (cors.origins.map bytes).contains origin then [⟨"access-control-allow-origin", origin⟩]
      else []
    | none => []
  .ofText "access-control-allow-credentials" "true" :: origin

/-- The headers of the answer to a request that asks what is allowed. -/
def preflightHeaders : List Header :=
  [.ofText "access-control-allow-methods" "GET,POST,DELETE",
    .ofText "access-control-allow-headers" "content-type,authorization",
    .ofText "access-control-max-age" "3600"]

end Cors

end Provisioner.Api
