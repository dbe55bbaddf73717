import CandyDrop.Assets.Manifest
import CandyDrop.Checks.Storage
import CandyDrop.Deploy.Command
import CandyDrop.Upload.Schedule

/-!
# Uploading a collection

The command that registers the files of a collection with a candy machine. It creates the machine
unless one is recorded, and then writes the lines that are not on the chain yet, so that running it
again goes on where it stopped. Files and manifests are checked before the cluster is asked.
-/

namespace CandyDrop.Upload

/-- The items of manifests by their positions from `position` on. A link is made of the base and
the number in the name of the file. -/
def itemsFrom (base : String) : (position : Nat) → (files : List (String × Manifest)) →
    Except Failure (List (String × CacheItem))
  | _, [] => .ok []
  | position, (path, manifest) :: files => do
    let index ← (Assets.index path).mapError .upload
    let link := base ++ "/" ++ index.toNat.repr
    (Checks.name manifest.name).mapError .check
    (Checks.url link).mapError .check
    let rest ← itemsFrom base (position + 1) files
    return (position.repr, ⟨manifest.name, link, false⟩) :: rest

/-- The items of manifests; slashes at the end of the base do not count. -/
def items (base : String) (paths : List String) (manifests : List Manifest) :
    Except Failure (List (String × CacheItem)) :=
  itemsFrom (Text.trimEndOf '/' base) 0 (paths.zip manifests)

/-- What the links start with; blank is not enough. -/
def baseUri (config : Config) : Except Failure String :=
  match config.baseUri with
  | some base => if Text.blank base then .error (.upload .missingBaseUri) else .ok base
  | none => .error (.upload .missingBaseUri)

/-- An item as it will be recorded: on the chain only if it was there with the same name and
link. -/
def merged (recorded : Option CacheItem) (item : CacheItem) : CacheItem :=
  match recorded with
  | some r => { item with onChain := r.onChain && r.name == item.name && r.link == item.link }
  | none => { item with onChain := false }

/-- The record with the items of the manifests. -/
def merge (items : List (String × CacheItem)) (cache : Cache) : Cache :=
  { cache with
    items := items.foldl (fun t (k, item) => t.insert k (merged (t.get? k) item)) cache.items }

/-- What an upload is made from. -/
structure Options where
  /-- The folder of the collection. -/
  directory : String
  place : CachePlace
  choice : CollectionChoice
  /-- How many batches may be out at a time; zero means the default. -/
  rateLimit : Nat

/-- What is known before the cluster is asked. -/
structure Plan where
  details : CollectionDetails
  collection : Option Address
  available : UInt64
  count : Nat
  items : List (String × CacheItem)

/-- The storage service on the cluster of the record. -/
def storage (config : Config) (env : String) : Script Storage :=
  match Cluster.ofName? env with
  | none => .fail (.config (.unknownCluster env))
  | some cluster => do
    let s ← Script.ofExcept .check (Checks.storage config cluster)
    Assets.warnAll (Checks.storageWarning? cluster s).toList
    return s

/-- What all items share, as the first manifest says it. -/
def detailsOf : List Manifest → Except CheckFault CollectionDetails
  | [] => .error .noCreators
  | m :: _ => CollectionDetails.check m.symbol m.sellerFeeBasisPoints m.creators

/-- Reads the collection and checks everything that needs no cluster. -/
def plan (config : Config) (options : Options) : Script Plan := do
  let storage ← storage config options.place.env
  Script.say "[1/3] 🗂  Loading assets"
  let assets ← Assets.ofFolder options.directory
  let available ← Script.ofExcept .upload (assets.checkCounts storage config.number)
  let manifests ← Manifest.readAll assets.manifests
  let base ← Script.ofExcept id (baseUri config)
  let items ← Script.ofExcept id (items base assets.manifests manifests)
  let details ← Script.ofExcept .check (detailsOf manifests)
  let collection ← Script.ofExcept .deploy (CollectionMint.parse options.choice.mint)
  return ⟨details, collection, available, manifests.length, items⟩

/-- The recorded machine, or a new one if none is recorded; either way it is recorded. -/
def machine (payer : Address) (settings : Settings) (plan : Plan) (cache : Cache) :
    Script (Address × Cache) := do
  match ← Script.ofExcept .cache cache.machine with
  | some machine =>
    Script.say ("Candy machine ID: " ++ machine.text)
    return (machine, ← cache.save)
  | none =>
    let machine ← Machine.create payer settings plan.details plan.available
    let cache := { cache.resetItems with program := CacheProgram.ofMachine machine }
    return (machine, ← cache.save)

/-- The batches to write; hidden settings leave no room for lines. -/
def batches (settings : Settings) (count : Nat) (cache : Cache) :
    Except DeployFault (List Batch) :=
  if settings.hiddenSettings.isSome then .ok []
  else Batch.ofItems (UInt64.ofNat count) cache.items

/-- Writes the lines that are not on the chain yet. -/
def writeLines (payer machine : Address) (limit : Nat) (batches : List Batch) (cache : Cache) :
    Script Cache :=
  match batches with
  | [] => do
    Script.say "All config lines deployed."
    return cache
  | batches => do
    let (cache, outcome) ← Schedule.run payer machine limit cache batches
    if outcome.success then return cache
    else .fail (.deploy (.incomplete outcome.faults))

/-- Sets the collection that is wanted, unless it is recorded as set. -/
def setCollection (payer machine : Address) (choice : CollectionChoice)
    (collection : Option Address) (cache : Cache) : Script Unit :=
  match collection with
  | some mint =>
    if cache.program.collectionMint = mint.text ∨ choice.set = false then .done ()
    else do
      Script.say "\n📦 Setting collection"
      let _ ← CollectionMint.setAndRecord payer machine mint cache
      return ()
  | none => .done ()

/-- Registers a collection with its machine. -/
def run (payer : Address) (now : Int) (config : Config) (options : Options) : Script Address := do
  let plan ← plan config options
  Deploy.checkCollection payer plan.collection
  let settings ← Settings.resolve config payer now
  let place := options.place
  let cache ← Cache.load place.folder place.env place.name true
  let cache := merge plan.items cache
  Script.say "\n[2/3] 🍬 Creating candy machine"
  let (machine, cache) ← machine payer settings plan cache
  Script.say "\n[3/3] 📝 Writing config lines"
  let batches ← Script.ofExcept .deploy (batches settings plan.count cache)
  let cache ← writeLines payer machine options.rateLimit batches cache
  setCollection payer machine options.choice plan.collection cache
  return machine

end CandyDrop.Upload
