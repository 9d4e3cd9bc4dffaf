import Provisioner.Api.Exchange
import Provisioner.Viewer.Gallery

/-!
# Admitting viewers

A viewer asks for a stream like any other request. If it is granted, a session begins in a seat of
the gallery; a refused viewer takes a seat too, which stays without a session.

The snapshot for the session is read from the store of the gallery. What asks for something else
than a stream is carried through without a database.
-/

namespace Provisioner.Api

/-- The headers of a handshake. -/
def handshakeHeaders : List Header :=
  [.ofText "connection" "Upgrade", .ofText "upgrade" "websocket",
    .ofText "sec-websocket-key" "x", .ofText "sec-websocket-version" "13"]

/-- The request for the stream of a machine, with its id as it is written in the path. -/
def Request.forStream? (id : String) : Option Request :=
  Request.ofParts? "GET" ("/api/v1/machines/" ++ id ++ "/ws").toList handshakeHeaders [] true

/-- The response to a task that is carried through without a database, and without a provider. -/
def Task.alone (t : Task) (setup : Setup) (run : Circumstances) : Response :=
  let x : Exchange := ⟨.empty, .start [] ⟨0, .breakdown⟩, 0⟩
  (x.carry ⟨setup, 1, some .noConnection, "", run⟩ t).2

end Provisioner.Api

namespace Provisioner.Gallery

open Api

/-- The gallery with a seat that stays empty, and the response to its viewer. -/
def refuse (g : Gallery) (r : Response) : Gallery × Option Response := (g.seat none, some r)

/--
Opens the stream of a machine or refuses its viewer. The snapshot for the session is read now, and
`fault` is why that read fails if it is planned to.
-/
def beginStream (g : Gallery) (setup : Setup) (run : Circumstances) (fault : DatabaseFailure)
    (id : MachineId) : Gallery × Option Response :=
  let (fails, faults) := g.faults.next Read.snapshot.name
  let g := { g with faults }
  let o := Outside.ofFault (if fails then some fault else none) run
  match ((Task.opening id).step setup o { World.empty with database := g.database }).1.answer? with
  | some (.stream id snapshot) => ((g.seat (some (.start id snapshot g.now))).settle, none)
  | some answer => g.refuse (.ofAnswer answer)
  | none => g.refuse .brokenDown

/-- Welcomes a viewer or refuses it with a response. -/
def welcome (g : Gallery) (setup : Setup) (run : Circumstances) (fault : DatabaseFailure)
    (request : Request) : Gallery × Option Response :=
  match Start.ofRequest request "" with
  | .response r => g.refuse r
  | .task (.opening id) => g.beginStream setup run fault id
  | .task t => g.refuse (t.alone setup run)

end Provisioner.Gallery
