import CandyDrop.Deploy.Collection
import CandyDrop.Deploy.Create

/-!
# Deploying a candy machine

The command that creates a candy machine from a configuration alone. What can be checked without
the cluster is checked first. A machine that was created is recorded at once, before its
collection is set; items recorded for another machine are taken for not yet written.
-/

namespace CandyDrop

/-- Where the record of a drop is kept. -/
structure CachePlace where
  folder : String
  env : String
  name : String
  deriving DecidableEq

/-- The collection that the user wants for a machine. -/
structure CollectionChoice where
  /-- The token that stands for it, as it was written. -/
  mint : Option String
  /-- Whether it is set, and not only checked. -/
  set : Bool
  deriving DecidableEq

namespace Deploy

/-- What is known before the cluster is asked. -/
structure Plan where
  details : CollectionDetails
  collection : Option Address
  items : UInt64

/-- Checks everything that needs no cluster. -/
def plan (config : Config) (choice : CollectionChoice) : Except Failure Plan := do
  let details ← (CollectionDetails.check config.symbol config.sellerFeeBasisPoints
    config.creators).mapError .check
  let collection ← (CollectionMint.parse choice.mint).mapError .deploy
  match config.number with
  | some items => return ⟨details, collection, items⟩
  | none => throw (.deploy .missingNumber)

/-- Checks the collection, if there is one. -/
def checkCollection (payer : Address) : Option Address → Script Unit
  | some mint => CollectionMint.check payer mint
  | none => .done ()

/-- The collection that will be set. -/
def chosen (choice : CollectionChoice) (collection : Option Address) : Option Address :=
  if choice.set then collection else none

/-- The record of a drop that now has a new machine. -/
def record (machine : Address) (cache : Cache) : Cache :=
  let cache := if cache.program.candyMachine = "" then cache else cache.resetItems
  { cache with program := CacheProgram.ofMachine machine }

/-- Notes that a recorded machine is replaced. -/
def warnReplaced (machine : Address) (cache : Cache) : Script Unit :=
  if cache.program.candyMachine = "" then .done ()
  else Script.warn ("replacing candy machine " ++ cache.program.candyMachine
    ++ " in the cache with " ++ machine.text)

/-- Creates a machine and records it. -/
def run (payer : Address) (now : Int) (config : Config) (place : CachePlace)
    (choice : CollectionChoice) : Script Address := do
  let plan ← Script.ofExcept id (plan config choice)
  checkCollection payer plan.collection
  let settings ← Settings.resolve config payer now
  let steps := if (chosen choice plan.collection).isSome then "2" else "1"
  Script.say ("[1/" ++ steps ++ "] 🍬 Creating candy machine")
  let machine ← Machine.create payer settings plan.details plan.items
  let cache ← Cache.load place.folder place.env place.name true
  warnReplaced machine cache
  let cache ← (record machine cache).save
  match chosen choice plan.collection with
  | some mint =>
    Script.say ("\n[2/" ++ steps ++ "] 📦 Setting collection")
    let _ ← CollectionMint.setAndRecord payer machine mint cache
    return machine
  | none => return machine

end Deploy

end CandyDrop
