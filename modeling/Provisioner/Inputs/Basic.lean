/-!
# The inputs of a provisioning run

What a run installs on a machine: keys and messaging channels. All of it is optional. An empty
text counts as nothing where the inputs are used, but is kept apart from nothing where they are
stored.
-/

namespace Provisioner

/-- A messaging channel to be set up on the machine. -/
structure Channel where
  /-- The kind of channel, such as `telegram`. -/
  kind : String
  token : Option String
  name : Option String
  account : Option String
deriving DecidableEq, Repr

/-- The inputs of a run. -/
structure Inputs where
  sshPublicKey : Option String
  anthropicKey : Option String
  openaiKey : Option String
  geminiKey : Option String
  wayfinderKey : Option String
  channels : List Channel
deriving DecidableEq, Repr

namespace Inputs

/-- No inputs. -/
def empty : Inputs :=
  { sshPublicKey := none, anthropicKey := none, openaiKey := none, geminiKey := none,
    wayfinderKey := none, channels := [] }

/-- A text that is given and is not empty. -/
def present (value : Option String) : Option String := value.filter (· ≠ "")

/-- The keys of the four services, in a fixed order, each with its name. -/
def serviceKeys (x : Inputs) : List (String × Option String) :=
  [("anthropic_api_key", x.anthropicKey), ("openai_api_key", x.openaiKey),
    ("gemini_api_key", x.geminiKey), ("wayfinder_api_key", x.wayfinderKey)]

/-- Whether an access key is installed, after which the provider's own key is revoked. -/
def installsAccessKey (x : Inputs) : Bool := (present x.sshPublicKey).isSome

/-- Texts of at most this many characters are not treated as secrets. -/
def shortestHarmless : Nat := 3

/-- The texts that must not be shown: keys of services and tokens of channels. -/
def secrets (x : Inputs) : List String :=
  (x.serviceKeys.filterMap (present ·.2) ++ x.channels.filterMap (present ·.token)).filter
    (shortestHarmless < ·.length)

/-- A summary that names what is given and holds none of it. -/
def describe (x : Inputs) : String :=
  let given := [("ssh_key", x.sshPublicKey), ("anthropic", x.anthropicKey),
    ("openai", x.openaiKey), ("gemini", x.geminiKey), ("wayfinder", x.wayfinderKey)]
  let named := (given.filter fun (_, value) => (present value).isSome).map (·.1)
  String.intercalate "," (named ++ [s!"channels={x.channels.length}"])

end Inputs

end Provisioner
