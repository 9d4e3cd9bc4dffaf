import Provisioner.Api.Message
import Provisioner.Text.Blank

/-!
# Routes

A path is compared as it is written, piece by piece between slashes. An id at the end of a path must
not be empty; in front of another piece it may be. No path ends in a slash.
-/

namespace Provisioner.Api

/-- What a path leads to, with the id as it is written. -/
inductive Route where
  | health
  | machines
  | machine (id : List Char)
  | log (id : List Char)
  | reprovision (id : List Char)
  | stream (id : List Char)
deriving DecidableEq, Repr

namespace Route

/-- The pieces of a path in front of what belongs to machines. -/
def beginning : List (List Char) := ["", "api", "v1", "machines"].map String.toList

/-- The route of what follows the beginning of a path. -/
def ofPieces? : List (List Char) → Option Route
  | [] => some .machines
  | [id] => if id.isEmpty then none else some (.machine id)
  | [id, last] =>
    if last = "logs".toList then some (.log id)
    else if last = "reprovision".toList then some (.reprovision id)
    else if last = "ws".toList then some (.stream id)
    else none
  | _ => none

/-- The route of a path. -/
def ofPath? (path : List Char) : Option Route :=
  if path = "/health".toList then some .health
  else
    let pieces := path.splitOn '/'
    if pieces.take 4 = beginning then ofPieces? (pieces.drop 4) else none

/-- The methods of a route as they are shown. -/
def allow : Route → String
  | health | log _ | stream _ => "GET,HEAD"
  | machines => "GET,HEAD,POST"
  | machine _ => "GET,HEAD,DELETE"
  | reprovision _ => "POST"

end Route

/-- What a request asks for, with its parameters as they are written. -/
inductive Endpoint where
  | health
  | list
  | create
  | show (id : List Char)
  | delete (id : List Char)
  | log (id : List Char)
  | reprovision (id : List Char)
  | stream (id : List Char)
deriving DecidableEq, Repr

/-- The endpoint of a route and a method, if the route has that method. -/
def Endpoint.of? : Route → Method → Option Endpoint
  | .health, .get | .health, .head => some .health
  | .machines, .get | .machines, .head => some .list
  | .machines, .post => some .create
  | .machine id, .get | .machine id, .head => some (.show id)
  | .machine id, .delete => some (.delete id)
  | .log id, .get | .log id, .head => some (.log id)
  | .reprovision id, .post => some (.reprovision id)
  | .stream id, .get | .stream id, .head => some (.stream id)
  | _, _ => none

end Provisioner.Api
