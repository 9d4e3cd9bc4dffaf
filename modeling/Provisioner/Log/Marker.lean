import Provisioner.Text.Blank
import Provisioner.Text.Lines
import Provisioner.Text.Search

/-!
# Values that the configuration tool prints behind a marker

A tool hands a value over by printing `MARKER=value` somewhere in a line. The first such line
counts; its value is the rest of the line without blanks and then without quotes at its ends.
-/

namespace Provisioner.Marker

/-- The marker in front of the address of the node's wallet. -/
def walletAddress : String := "WALLET_ADDRESS"

/-- The characters that may be put around a value. -/
def isQuote (c : Char) : Bool := c == '"' || c == '\''

/-- The value in the rest of a line. -/
def unwrap (rest : List Char) : List Char := Text.trimBy isQuote (Text.trim rest)

/-- The value behind the first `marker=` in a text, or nothing if there is none. -/
def extract (marker output : String) : String :=
  let piece := marker.toList ++ ['=']
  match (Text.lines output.toList).findSome? (Text.after? piece) with
  | some rest => String.ofList (unwrap rest)
  | none => ""

end Provisioner.Marker
