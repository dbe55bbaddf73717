import CandyDrop.Checks.Fault
import CandyDrop.Config.Fault
import CandyDrop.Machine.Layout
import CandyDrop.Url

/-!
# Why a command fails

A command stops at the first failure. A failure is its cause: what is wrong, and with what. The
wording for the user is in `message` and nowhere else. A failure may be the consequence of another
one, whose message then is part of its own.
-/

namespace CandyDrop

/-- A fault of the local record of a drop. -/
inductive CacheFault where
  /-- There is no file at the path. -/
  | notFound (path : String)
  /-- The recorded candy machine is no address. -/
  | invalidMachine (text : String)
  | unopened (path reason : String)
  /-- The file is no record of a drop. -/
  | malformed (reason : String)
  deriving DecidableEq

def CacheFault.message : CacheFault → String
  | notFound path =>
    "Cache file '" ++ path ++ "' not found. Run `candy-cli upload` or `candy-cli deploy` to create it or provide it with the --cache-name option."
  | invalidMachine text => "Invalid candy machine address: " ++ text
  | unopened path reason =>
    "Failed to open cache file: " ++ path ++ " with error: " ++ reason
  | malformed reason => "Failed to parse cache file with error: " ++ reason

/-- A connection that cannot be made: where to, and why. -/
structure Outage where
  url : String
  reason : String
  deriving DecidableEq

def Outage.message (o : Outage) : String :=
  "error sending request for url (" ++ Url.withPath o.url ++ "): error trying to connect: "
    ++ o.reason

/-- Why the cluster does not do what it is asked. -/
inductive ClusterFault where
  /-- It refuses, in its own words. -/
  | refused (text : String)
  /-- It cannot be asked. -/
  | unreachable (outage : Outage)
  /-- It cannot be asked for its version first, as it is before every call but that for a rent. -/
  | unversioned (outage : Outage)
  deriving DecidableEq

def ClusterFault.message : ClusterFault → String
  | refused text => text
  | unreachable outage => outage.message
  | unversioned outage =>
    "RPC request error: cluster version query failed: " ++ outage.message

/-- Why a batch of lines is not written. -/
inductive BatchFault where
  | cluster (fault : ClusterFault)
  /-- The user stopped before every batch was started. -/
  | aborted
  deriving DecidableEq

def BatchFault.message : BatchFault → String
  | cluster fault => fault.message
  | aborted => "Upload aborted, not all config lines were written."

/-- A fault in creating a candy machine or in writing its lines. -/
inductive DeployFault where
  | missingItem (index : Nat)
  | missingName (index : Nat)
  | missingLink (index : Nat)
  /-- Some batches of lines were not written. -/
  | incomplete (faults : List BatchFault)
  /-- The balance and what is needed, in lamports. -/
  | balanceTooLow (balance needed : UInt64)
  | missingNumber
  | tooManyItems (items : UInt64)
  | invalidCollectionMint (text : String)
  /-- Another wallet may change the collection. -/
  | collectionAuthority (authority payer : Address)
  deriving DecidableEq

/-- Lamports as a number of tokens with three decimal places. -/
def DeployFault.tokens (lamports : UInt64) : String :=
  ((Binary64.ofNat lamports.toNat).div (Binary64.ofNat 1000000000)).renderFixed 3

/-- The texts of a list without repetitions, in ascending order. -/
def DeployFault.distinct (texts : List String) : List String :=
  (texts.mergeSort fun a b => decide (a ≤ b)).eraseReps

def DeployFault.message : DeployFault → String
  | missingItem index => "Missing cache item " ++ index.repr
  | missingName index => "Missing name for cache item " ++ index.repr
  | missingLink index => "Missing metadata link for cache item " ++ index.repr
  | incomplete faults =>
    "upload was not successful, please re-run."
      ++ String.join ((distinct (faults.map BatchFault.message)).map ("\n - " ++ ·))
  | balanceTooLow balance needed =>
    "Your current wallet balance of " ++ tokens balance ++ " SOL is not enough. "
      ++ tokens needed ++ " SOL is needed to deploy the candy machine."
  | missingNumber => "The number of items available ('number') must be set in the config file"
  | tooManyItems items =>
    "Too many items available (" ++ items.toNat.repr
      ++ "): the candy machine account size overflows"
  | invalidCollectionMint text => "Invalid collection mint '" ++ text ++ "'"
  | collectionAuthority authority payer =>
    "The collection update authority " ++ authority.text ++ " does not match the wallet "
      ++ payer.text

/-- A fault of the files of a collection. -/
inductive UploadFault where
  | invalidDirectory (path : String)
  | animationsNotSupported
  | animationCount (animations manifests : Nat)
  | imageCount (images manifests : Nat)
  | numberTooSmall (number : UInt64) (images : Nat)
  | noManifests
  | missingBaseUri
  | invalidFileName (name : String)
  /-- The numbers of the manifests have a gap or a repetition. -/
  | gap (expected : UInt64) (path : String)
  | unreadableManifest (path reason : String)
  | invalidManifest (path : String) (fault : CheckFault)
  deriving DecidableEq

def UploadFault.message : UploadFault → String
  | invalidDirectory path => "Invalid assets directory: " ++ path
  | animationsNotSupported =>
    "The \"arweave\" storage option is incompatible with animation files. Please use another storage option"
  | animationCount animations manifests =>
    "number of animation files (" ++ animations.repr
      ++ ") is different than the number of json files (" ++ manifests.repr ++ ")"
  | imageCount images manifests =>
    "number of img files (" ++ images.repr ++ ") is different than the number of json files ("
      ++ manifests.repr ++ ")"
  | numberTooSmall number images =>
    "max number (" ++ number.toNat.repr
      ++ ") cannot be smaller than the number of images in the source folder (" ++ images.repr
      ++ ")"
  | noManifests => "No metadata files found in the assets directory"
  | missingBaseUri =>
    "A base uri ('baseUri') must be set in the config file to build the metadata links"
  | invalidFileName name => "Couldn't parse filename '" ++ name ++ "' to a valid index number"
  | gap expected path =>
    "Metadata files must be numbered without gaps: expected index " ++ expected.toNat.repr
      ++ ", found '" ++ path ++ "'"
  | unreadableManifest path reason => "Invalid metadata file " ++ path ++ ": " ++ reason
  | invalidManifest path fault => "Invalid metadata file " ++ path ++ ": " ++ fault.message

/-- A fault in minting. -/
inductive MintFault where
  | soldOut (machine : Address)
  | zeroNumber
  deriving DecidableEq

def MintFault.message : MintFault → String
  | soldOut machine => "Candy machine " ++ machine.text ++ " has no items left to mint"
  | zeroNumber => "The number of tokens to mint must be greater than zero"

/-- A fault of the wallet. -/
inductive WalletFault where
  | missingKeypair
  | unreadable (path reason : String)
  deriving DecidableEq

def WalletFault.message : WalletFault → String
  | missingKeypair => "Keypair is required!"
  | unreadable path reason => "Failed to read keypair file '" ++ path ++ "': " ++ reason

/-- A fault in the content of an account. -/
inductive AccountFault where
  | machineNotFound (address : Address)
  | layout (fault : LayoutFault)
  | tokenNotFound (mint : Address)
  /-- An account that has not the size of a mint. -/
  | tokenSize (mint : Address)
  /-- A mint or a token account with impossible content. -/
  | tokenContent
  | tokenUninitialized (mint : Address)
  | tokenAccountNotFound (account : Address)
  | tokenAccountUninitialized (account : Address)
  /-- The treasury holds another token. -/
  | treasuryMismatch (treasury token : Address)
  | metadataNotFound (address : Address)
  | metadataMalformed (address : Address)
  | editionNotFound (address : Address)
  | editionInvalid (address : Address)
  deriving DecidableEq

def LayoutFault.name : LayoutFault → String
  | noDiscriminator => "AccountDiscriminatorNotFound"
  | wrongDiscriminator => "AccountDiscriminatorMismatch"
  | malformed => "AccountDidNotDeserialize"

def AccountFault.message : AccountFault → String
  | machineNotFound a => "Candy machine account not found: " ++ a.text
  | layout fault => "AnchorError " ++ fault.name
  | tokenNotFound a => "The specified spl-token does not exist: " ++ a.text
  | tokenSize a => "Invalid spl-token passed in: " ++ a.text
  | tokenContent => "An account's data contents was invalid"
  | tokenUninitialized a => "The specified spl-token is not initialized: " ++ a.text
  | tokenAccountNotFound a => "The specified spl-token account does not exist: " ++ a.text
  | tokenAccountUninitialized a =>
    "The specified spl-token account is not initialized: " ++ a.text
  | treasuryMismatch treasury token =>
    "The treasury token account " ++ treasury.text ++ " does not belong to the spl-token "
      ++ token.text
  | metadataNotFound a => "Couldn't find metadata account: " ++ a.text
  | metadataMalformed a => "Failed to deserialize metadata account: " ++ a.text
  | editionNotFound a => "Couldn't find master edition account: " ++ a.text
  | editionInvalid a => "Invalid master edition account: " ++ a.text

/-- A fault of the level that was chosen for the log. -/
inductive LogFault where
  /-- It is no filter of log events. -/
  | invalid (text : String)
  /-- It is a filter, but not a level. -/
  | notALevel
  deriving DecidableEq

def LogFault.message : LogFault → String
  | invalid text =>
    "Invalid log level: " ++ text
      ++ ".\n Valid levels are: trace, debug, info, warn, error."
  | notALevel =>
    "error parsing level filter: expected one of \"off\", \"error\", \"warn\", \"info\", \"debug\", \"trace\", or a number 0-5"

/-- Why a command fails. -/
inductive Failure where
  | config (fault : ConfigFault)
  | check (fault : CheckFault)
  | cache (fault : CacheFault)
  | deploy (fault : DeployFault)
  | upload (fault : UploadFault)
  | mint (fault : MintFault)
  | wallet (fault : WalletFault)
  | account (fault : AccountFault)
  /-- The wallet and the connection cannot be set up. -/
  | setup (cause : Failure)
  /-- The token of the collection is not in order. -/
  | collectionToken (token : Address) (cause : Failure)
  /-- A round of minting failed, of so many. -/
  | mintRound (round rounds : UInt64) (cause : Failure)
  | cluster (fault : ClusterFault)
  /-- A file cannot be written. -/
  | unwritable (reason : String)
  /-- The level of the log is none. -/
  | logLevel (fault : LogFault)

/-- The text that the user sees. -/
def Failure.message : Failure → String
  | config fault => fault.message
  | check fault => fault.message
  | cache fault => fault.message
  | deploy fault => fault.message
  | upload fault => fault.message
  | mint fault => fault.message
  | wallet fault => fault.message
  | account fault => fault.message
  | setup cause => "Error setting up candy-cli: " ++ cause.message
  | collectionToken token cause =>
    "Invalid collection mint " ++ token.text ++ ": " ++ cause.message
  | mintRound round rounds cause =>
    "Mint " ++ round.toNat.repr ++ " of " ++ rounds.toNat.repr ++ " failed: " ++ cause.message
  | cluster fault => fault.message
  | unwritable reason => reason
  | logLevel fault => fault.message

end CandyDrop
