import Provisioner.Api.Message
import Provisioner.Text.Search

/-!
# The handshake of a stream

A request for a stream must ask for the connection to be upgraded, in its headers.
-/

namespace Provisioner.Api

/-- What is wrong with a handshake. -/
inductive HandshakeFault where
  /-- The method is not that of a handshake. -/
  | method
  /-- A header is missing or has another value. -/
  | header
  /-- The connection cannot be upgraded. -/
  | connection
deriving DecidableEq, Repr

/-- The status that answers a fault. -/
def HandshakeFault.status : HandshakeFault → Nat
  | method => 405
  | header => 400
  | connection => 426

namespace Request

/-- Whether the header `connection` speaks of an upgrade; it must be a text. -/
def wantsUpgrade (r : Request) : Bool :=
  ((r.header? "connection").bind Text.Utf8.decodeStrict?).any fun value =>
    Text.occursIn "upgrade".toList (value.map Char.toLower)

/-- Whether a header has a value, which is compared as it is. -/
def hasHeader (r : Request) (name value : String) : Bool :=
  r.header? name == some (Text.Utf8.encode value.toList)

/-- What is wrong with the handshake of a request. -/
def handshakeFault? (r : Request) : Option HandshakeFault :=
  if r.method ≠ .get then some .method
  else if !r.wantsUpgrade then some .header
  else if (r.header? "upgrade").map Header.lower ≠ some (Text.Utf8.encode "websocket".toList) then
    some .header
  else if (r.header? "sec-websocket-key").isNone then some .header
  else if !r.hasHeader "sec-websocket-version" "13" then some .header
  else if !r.upgradable then some .connection
  else none

end Request

end Provisioner.Api
