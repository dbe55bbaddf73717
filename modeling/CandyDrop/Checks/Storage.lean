import CandyDrop.Checks.Fault
import CandyDrop.Config.Basic
import CandyDrop.Text.Blank

/-!
# Checks of the storage service

Whether the service that the configuration names can be used on a cluster with the credentials
that are given. Some services work and still deserve a warning.
-/

namespace CandyDrop.Checks

/-- Whether a credential is left out or holds nothing but white space. -/
def isMissing (value : Option String) : Bool :=
  match value with
  | none => true
  | some s => Text.blank s

/-- What the service needs and does not have. -/
def storageFault? (config : Config) (cluster : Cluster) : Storage → Option CheckFault
  | .arweaveBundle =>
    if !cluster.isMainnet then some .bundleNotMainnet
    else if isMissing config.arweaveJwk then some .missingArweaveJwk
    else none
  | .ipfs =>
    if isMissing config.ipfsInfuraProjectId || isMissing config.ipfsInfuraSecret then
      some .missingIpfsCredentials
    else none
  | .aws => if isMissing config.awsS3Bucket then some .missingAwsBucket else none
  | _ => none

/-- The storage service of the configuration, if it can be used. -/
def storage (config : Config) (cluster : Cluster) : Except CheckFault Storage :=
  let name := config.storage.getD ""
  match Storage.ofName? name with
  | none => .error (.unknownStorage name)
  | some s =>
    match storageFault? config cluster s with
    | some fault => .error fault
    | none => .ok s

/-- What the user should know about a service on a cluster. -/
def storageWarning? (cluster : Cluster) : Storage → Option String
  | .arweaveSol =>
    if cluster.isMainnet then none
    else some ("On " ++ cluster.name ++ ", the arweave-sol storage option only stores your files for 1 week. Please upload via mainnet-beta for your final collection.")
  | .arweave =>
    some "The arweave storage option will be going away soon. Please migrate to arweave-bundle or arweave-sol for mainnet."
  | _ => none

end CandyDrop.Checks
