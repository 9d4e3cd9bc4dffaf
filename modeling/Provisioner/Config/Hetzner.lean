import Provisioner.Config.Environment

/-!
# Settings of the cloud provider
-/

namespace Provisioner.Config

/-- The settings of the cloud provider. -/
structure Hetzner where
  token : String
  /-- The key that the provider installs on new machines. -/
  sshKeyId : Int64
  serverType : String
  image : String
  location : String
  apiUrl : String
deriving DecidableEq, Repr

/-- Reads the settings. -/
def Hetzner.ofEnvironment (env : Environment) : Except Fault Hetzner := do
  let token ← env.required "HCLOUD_TOKEN"
  let key ← env.required "SSH_KEY_ID"
  let some sshKeyId := Text.int64? key.toList | throw (.notNumber "SSH_KEY_ID" "an integer")
  return {
    token
    sshKeyId
    serverType := env.textOr "SERVER_TYPE" "cpx11"
    image := env.textOr "IMAGE" "ubuntu-24.04"
    location := env.textOr "LOCATION" "fsn1"
    apiUrl := env.textOr "HCLOUD_API_URL" "https://api.hetzner.cloud/v1" }

end Provisioner.Config
