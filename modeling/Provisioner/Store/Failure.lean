/-!
# Failures of the database
-/

namespace Provisioner

/-- Why a statement fails. What the message says is for the trace only. -/
inductive DatabaseFailure where
  /-- A row that must be there is not. -/
  | rowNotFound
  /-- The database refuses the statement, with its code and the constraint that is violated. -/
  | refused (code : Option String) (constraint : Option String) (message : String)
  /-- Anything else, such as a lost connection. -/
  | other (message : String)
deriving DecidableEq, Repr

namespace DatabaseFailure

/-- The code for a value that must be unique and is not. -/
def uniqueViolation : String := "23505"

/-- The code for a reference to a row that is not there. -/
def missingReference : String := "23503"

/-- No connection became free in time. -/
def noConnection : DatabaseFailure :=
  .other "pool timed out while waiting for an open connection"

/-- The message of a failure. -/
def message : DatabaseFailure → String
  | rowNotFound => "no rows returned by a query that expected to return at least one row"
  | refused _ _ message => "error returned from database: " ++ message
  | other message => message

end DatabaseFailure

end Provisioner
