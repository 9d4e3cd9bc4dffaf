import Provisioner.Api.Admission
import Provisioner.Api.Exchange
import Provisioner.Cloud.Hetzner
import Provisioner.Config.Provision
import Provisioner.Config.Server
import Provisioner.Run.Rehearsal
import Provisioner.Proofs.Api.Consistency
import Provisioner.Proofs.Api.Creation
import Provisioner.Proofs.Api.Discretion
import Provisioner.Proofs.Api.Docket
import Provisioner.Proofs.Api.Reprovision
import Provisioner.Proofs.Cloud.Waiting
import Provisioner.Proofs.Hub.Registry
import Provisioner.Proofs.Log.Masking
import Provisioner.Proofs.Log.Tail
import Provisioner.Proofs.Run.Effect
import Provisioner.Proofs.Run.Secrecy
import Provisioner.Proofs.Run.Steady
import Provisioner.Proofs.Tool.Wallet
import Provisioner.Proofs.Viewer.Channels
import Provisioner.Proofs.Viewer.Delivery
import Provisioner.Proofs.Viewer.Message
import Provisioner.Proofs.Viewer.Wakeup
import Provisioner.Proofs.Inputs.Parameters
import Provisioner.Proofs.Inputs.Secrets
import Provisioner.Proofs.Api.Reticence
