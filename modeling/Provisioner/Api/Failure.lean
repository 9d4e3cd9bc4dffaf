import Provisioner.Cloud.Provider
import Provisioner.Json.Value
import Provisioner.Store.Call
import Provisioner.Store.Failure

/-!
# Failures of requests

Whatever goes wrong in a request is answered by a status, a code and a message. What went wrong
inside the service is never told: such failures all have one answer.
-/

namespace Provisioner.Api

/-- Why a request fails. -/
inductive Failure where
  | machine (cause : MachineFailure)
  | database (cause : DatabaseFailure)
  | store (cause : StoreFailure)
  | provider (cause : ProviderFailure)
  /-- The request is malformed, and nothing was done. -/
  | badRequest (reason : String)
deriving DecidableEq, Repr

/-- How a failure is answered. -/
structure Rejection where
  status : Nat
  code : String
  message : String
deriving DecidableEq, Repr

namespace Failure

/-- The message for the trace. -/
def message : Failure → String
  | machine cause => cause.message
  | database cause => "Database error: " ++ cause.message
  | store cause => cause.message
  | provider cause => cause.message
  | badRequest reason => "Bad request: " ++ reason

/-- The answer to a failure inside the service. -/
def internal : Rejection := ⟨500, "INTERNAL_ERROR", "An internal error occurred"⟩

/-- The answer to a failure about a machine. -/
def ofMachine : MachineFailure → Rejection
  | .notFound entity id => ⟨404, "NOT_FOUND", s!"{entity} with id {id} not found"⟩
  | .invalid reason => ⟨400, "VALIDATION_ERROR", reason⟩
  | .conflict reason => ⟨409, "CONFLICT", reason⟩
  | .internal _ => internal

/-- The answer to a failure of the database. -/
def ofDatabase : DatabaseFailure → Rejection
  | .rowNotFound => ⟨404, "NOT_FOUND", "Resource not found"⟩
  | .refused code constraint _ =>
    if code = some DatabaseFailure.uniqueViolation then
      ⟨409, "CONFLICT",
        "Duplicate value violates unique constraint: " ++ constraint.getD "unknown"⟩
    else internal
  | .other _ => internal

/-- The answer to a failure of the provider. -/
def ofProvider (cause : ProviderFailure) : Rejection :=
  match cause with
  | .actionUnfinished .. => ⟨504, "PROVIDER_ERROR", cause.message⟩
  | _ => ⟨502, "PROVIDER_ERROR", cause.message⟩

/-- How a failure is answered. -/
def rejection : Failure → Rejection
  | machine cause => ofMachine cause
  | database cause => ofDatabase cause
  | store _ => internal
  | provider cause => ofProvider cause
  | badRequest reason => ⟨400, "BAD_REQUEST", reason⟩

end Failure

/-- The body of the answer to a failure. -/
def Rejection.toJson (r : Rejection) : Json.Value :=
  .record [("code", .text r.code), ("error", .text r.message)]

end Provisioner.Api
