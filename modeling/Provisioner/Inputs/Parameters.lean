import Provisioner.Inputs.Basic
import Provisioner.Json.Value

/-!
# The parameters that a run hands to the configuration tool

The tool gets the inputs as one JSON object with its members in the order of their names, at both
levels. An empty text is left out like one that is not given; if nothing is left, no object is
handed over.
-/

namespace Provisioner

/-- A member for a text that is given and is not empty. -/
def presentMember (name : String) (value : Option String) : List (String × Json.Value) :=
  match Inputs.present value with
  | some value => [(name, .text value)]
  | none => []

/-- The parameters of one channel. -/
def Channel.parameters (c : Channel) : Json.Value :=
  .record (presentMember "account" c.account ++ presentMember "name" c.name ++
    presentMember "token" c.token ++ [("type", .text c.kind)])

namespace Inputs

/-- The members of the parameters. -/
def parameterMembers (x : Inputs) : List (String × Json.Value) :=
  let channels :=
    if x.channels.isEmpty then []
    else [("channels", Json.Value.array (x.channels.map Channel.parameters))]
  let sshKeys := match present x.sshPublicKey with
    | some key => [("clawdbot_ssh_keys", Json.Value.array [.text key])]
    | none => []
  presentMember "anthropic_api_key" x.anthropicKey ++ channels ++ sshKeys ++
    presentMember "gemini_api_key" x.geminiKey ++ presentMember "openai_api_key" x.openaiKey ++
    presentMember "wayfinder_api_key" x.wayfinderKey

/-- The parameters, if there are any. -/
def parameters (x : Inputs) : Option Json.Value :=
  if x.parameterMembers.isEmpty then none else some (.record x.parameterMembers)

end Inputs

end Provisioner
