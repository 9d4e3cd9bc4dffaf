import Provisioner.Config.Environment

/-!
# Settings of the server
-/

namespace Provisioner.Config

/-- The settings of the server. -/
structure Server where
  host : String
  port : Nat
  /-- The origins whose pages may make requests. -/
  corsOrigins : List String
  /-- How many seconds a request may take. -/
  requestTimeout : Nat
  /-- How many seconds are left to work in the background when the server stops. -/
  shutdownTimeout : Nat
deriving DecidableEq, Repr

namespace Server

/-- The pieces of a text between commas, trimmed, without the empty ones. -/
def commaSeparated (text : String) : List String :=
  let pieces := (text.toList.splitOn ',').map Text.trim
  (pieces.filter (!·.isEmpty)).map String.ofList

/-- Reads the settings. -/
def ofEnvironment (env : Environment) : Except Fault Server := do
  let port ← env.unsignedOr "PORT" 65535 "a valid u16" 8080
  let requestTimeout ← env.secondsOr "REQUEST_TIMEOUT_SECS" 360
  let shutdownTimeout ← env.secondsOr "SHUTDOWN_TIMEOUT_SECS" 10
  return {
    host := env.textOr "HOST" "0.0.0.0"
    port
    corsOrigins := commaSeparated (env.textOr "CORS_ORIGINS" "http://localhost:5173")
    requestTimeout
    shutdownTimeout }

end Server

end Provisioner.Config
