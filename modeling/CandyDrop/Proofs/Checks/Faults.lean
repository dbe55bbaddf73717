import CandyDrop.Assets.Manifest
import CandyDrop.Checks.Storage
import CandyDrop.Proofs.Checks.Limits
import CandyDrop.Proofs.Script.Local

/-!
# Faults by their limits

Which faults the checks of names, links, fees, creators, manifests and storage services find is
stated here by the limits themselves: each fault by what is beyond its limit, whatever the others
are. A check ends with the first of its faults (`Checks.faultOf_creators`, `Checks.faultOf_storage`,
`Manifest.faultOf_check`).
-/

namespace CandyDrop

/-! ## What is beyond a limit -/

/-- An option is left out or holds nothing but white space. -/
def IsLacking (option : Option String) : Prop :=
  ∀ text ∈ option, ∀ c ∈ text.toList, Text.isBlank c = true

instance (option : Option String) : Decidable (IsLacking option) :=
  inferInstanceAs (Decidable (∀ text ∈ option, _))

/-- The credentials that a storage service needs, each with the fault of lacking it. -/
def Config.credentials (config : Config) : Storage → List (Option String × CheckFault)
  | .arweaveBundle => [(config.arweaveJwk, .missingArweaveJwk)]
  | .ipfs =>
    [(config.ipfsInfuraProjectId, .missingIpfsCredentials),
     (config.ipfsInfuraSecret, .missingIpfsCredentials)]
  | .aws => [(config.awsS3Bucket, .missingAwsBucket)]
  | .arweaveSol | .arweave | .nftStorage | .pinata => []

namespace Checks

variable (failure : CheckFault → Failure)

/-- A name has more than 32 bytes. -/
def nameFault? (name : String) : Option Failure :=
  faultIf (32 < Bytes.sizeOfText name) (failure .nameTooLong)

/-- A symbol has more than 10 bytes. -/
def symbolFault? (symbol : String) : Option Failure :=
  faultIf (10 < Bytes.sizeOfText symbol) (failure .symbolTooLong)

/-- A link has more than 200 bytes. -/
def urlFault? (url : String) : Option Failure :=
  faultIf (200 < Bytes.sizeOfText url) (failure .urlTooLong)

/-- A fee is more than the whole price. -/
def feeFault? (basisPoints : UInt16) : Option Failure :=
  faultIf (10000 < basisPoints.toNat) (failure (.sellerFee basisPoints))

/-- The address of a creator is left out or is none. -/
def addressFault? (creator : Config.Creator) : Option Failure :=
  match creator.address with
  | none => some (failure .missingCreatorAddress)
  | some text =>
    faultIf ((Address.ofText? text).isNone = true) (failure (.invalidCreatorAddress text))

/-- A storage service is not there for the cluster, or it needs a credential that is lacking. -/
def usageFaults (config : Config) (cluster : Cluster) (service : Storage) :
    List (Option Failure) :=
  faultIf (service = .arweaveBundle ∧ cluster ≠ .mainnetBeta) (failure .bundleNotMainnet) ::
    (config.credentials service).map fun (option, fault) =>
      faultIf (IsLacking option) (failure fault)

/-- The storage service is unknown, or it cannot be used. -/
def serviceFault? (config : Config) (cluster : Cluster) : Option Failure :=
  match Storage.ofName? (config.storage.getD "") with
  | none => some (failure (.unknownStorage (config.storage.getD "")))
  | some service => firstFault? (usageFaults failure config cluster service)

/-- There is no creator, there are more than four, one of them has no address, or their shares are
not 100 together. -/
def creatorFaults (cs : List Config.Creator) : List (Option Failure) :=
  [faultIf (cs.isEmpty = true) (failure .noCreators),
    faultIf (4 < cs.length) (failure (.tooManyCreators cs.length 4)),
    cs.findSome? (addressFault? failure),
    faultIf ((cs.map fun c => c.share.toNat).sum ≠ 100) (failure .creatorShares)]

end Checks

/-- What a manifest says is not within the limits. -/
def Manifest.limitFaults (failure : CheckFault → Failure) (m : Manifest) :
    List (Option Failure) :=
  [Checks.nameFault? failure m.name, Checks.symbolFault? failure m.symbol,
    Checks.urlFault? failure m.image, m.animationUrl.bind (Checks.urlFault? failure),
    Checks.feeFault? failure m.sellerFeeBasisPoints]

/-- What a file holds is no manifest, or one that is not within the limits. -/
def Manifest.fault? (path : String) : Content → Option Failure
  | .missing => some (.upload (.unreadableManifest path Content.missingReason))
  | .closed reason => some (.upload (.unreadableManifest path reason))
  | .folder => some (.upload (.unreadableManifest path Content.folderReason))
  | .bytes bs =>
    match Manifest.ofBytes? bs with
    | none => some (.upload (.unreadableManifest path (Manifest.form.reason bs)))
    | some m => firstFault? (m.limitFaults fun fault => .upload (.invalidManifest path fault))

/-- The symbol, the fee and the creators are not within the limits. -/
def detailFaults (symbol : String) (fee : UInt16) (creators : List Config.Creator) :
    List (Option Failure) :=
  Checks.symbolFault? .check symbol :: Checks.feeFault? .check fee ::
    Checks.creatorFaults .check creators

/-! ## What the checks find -/

theorem isLacking_some_iff {text : String} : IsLacking (some text) ↔ Text.blank text = true := by
  simp [IsLacking, Text.blank]

theorem isLacking_iff {option : Option String} :
    IsLacking option ↔ Checks.isMissing option = true := by
  cases option with
  | none => simp [IsLacking, Checks.isMissing]
  | some text => exact isLacking_some_iff

namespace Checks

variable {failure : CheckFault → Failure}

theorem faultOf_name (s : String) : faultOf failure (name s) = nameFault? failure s :=
  faultOf_unless Nat.not_le

theorem faultOf_symbol (s : String) : faultOf failure (symbol s) = symbolFault? failure s :=
  faultOf_unless Nat.not_le

theorem faultOf_url (s : String) : faultOf failure (url s) = urlFault? failure s :=
  faultOf_unless Nat.not_le

theorem faultOf_sellerFee (fee : UInt16) :
    faultOf failure (sellerFee fee) = feeFault? failure fee :=
  faultOf_unless Nat.not_le

theorem faultOf_address (c : Config.Creator) :
    faultOf failure (address c) = addressFault? failure c := by
  unfold address addressFault?
  cases c.address with
  | none => rfl
  | some text => cases h : Address.ofText? text <;> simp [faultOf, faultIf, h]

theorem faultOf_addresses (cs : List Config.Creator) :
    faultOf failure (addresses cs) = cs.findSome? (addressFault? failure) := by
  induction cs with
  | nil => rfl
  | cons c cs ih =>
    rw [findSome?_cons_eq_or, ← faultOf_address]
    exact faultOf_bind fun _ _ => (faultOf_map _).trans ih

theorem faultOf_creators (cs : List Config.Creator) :
    faultOf failure (creators cs) = firstFault? (creatorFaults failure cs) := by
  simp only [creatorFaults, firstFault?_cons, firstFault?_nil, Option.or_none, ← faultOf_addresses]
  refine faultOf_ite fun _ => faultOf_ite fun _ => faultOf_bind fun as _ => ?_
  refine (faultOf_map _).trans (faultOf_unless ?_)
  rw [foldl_share, Nat.zero_add]

theorem map_storageFault? (config : Config) (cluster : Cluster) (service : Storage) :
    (storageFault? config cluster service).map failure =
      firstFault? (usageFaults failure config cluster service) := by
  cases service with
  | arweaveBundle =>
    cases cluster <;> cases hjwk : isMissing config.arweaveJwk <;>
      simp [storageFault?, usageFaults, Config.credentials, firstFault?, faultIf, isLacking_iff,
        Cluster.isMainnet, hjwk]
  | ipfs =>
    cases hid : isMissing config.ipfsInfuraProjectId <;>
      cases hsecret : isMissing config.ipfsInfuraSecret <;>
      simp [storageFault?, usageFaults, Config.credentials, firstFault?, faultIf, isLacking_iff,
        hid, hsecret]
  | aws =>
    cases hbucket : isMissing config.awsS3Bucket <;>
      simp [storageFault?, usageFaults, Config.credentials, firstFault?, faultIf, isLacking_iff,
        hbucket]
  | arweaveSol | arweave | nftStorage | pinata =>
    simp [storageFault?, usageFaults, Config.credentials, firstFault?, faultIf]

theorem faultOf_storage (config : Config) (cluster : Cluster) :
    faultOf failure (storage config cluster) = serviceFault? failure config cluster := by
  rw [serviceFault?, storage]
  cases Storage.ofName? (config.storage.getD "") with
  | none => rfl
  | some service =>
    simp only [← map_storageFault?]
    cases storageFault? config cluster service <;> rfl

end Checks

namespace Manifest

variable {failure : CheckFault → Failure}

theorem faultOf_check (m : Manifest) :
    faultOf failure m.check = firstFault? (m.limitFaults failure) := by
  simp only [limitFaults, firstFault?_cons, firstFault?_nil, Option.or_none]
  rw [← Checks.faultOf_name, ← Checks.faultOf_symbol, ← Checks.faultOf_url m.image,
    ← Checks.faultOf_sellerFee]
  refine faultOf_bind fun _ _ => faultOf_bind fun _ _ => faultOf_bind fun _ _ => ?_
  cases m.animationUrl with
  | none => rfl
  | some url =>
    rw [Option.bind_some, ← Checks.faultOf_url]
    exact faultOf_bind fun _ _ => rfl

theorem faultOf_ofContent (path : String) (content : Content) :
    faultOf .upload (ofContent path content) = fault? path content := by
  cases content with
  | bytes bs =>
    simp only [ofContent, fault?]
    cases ofBytes? bs with
    | none => rfl
    | some m =>
      simp only [← faultOf_check]
      cases m.check <;> rfl
  | _ => rfl

end Manifest

theorem CollectionDetails.faultOf_check (symbol : String) (fee : UInt16)
    (creators : List Config.Creator) :
    faultOf .check (CollectionDetails.check symbol fee creators) =
      firstFault? (detailFaults symbol fee creators) := by
  rw [detailFaults, firstFault?_cons, firstFault?_cons, ← Checks.faultOf_symbol,
    ← Checks.faultOf_sellerFee, ← Checks.faultOf_creators]
  refine faultOf_bind fun _ _ => faultOf_bind fun _ _ => ?_
  exact faultOf_map _

end CandyDrop
