import CandyDrop.Cache.File
import CandyDrop.Machine.Instructions
import CandyDrop.Text.Blank
import CandyDrop.Token.Account
import CandyDrop.Token.Metadata

/-!
# The collection of a candy machine

A token can stand for the collection that the items of a machine belong to. The payer must be
allowed to change it and it must be the only one of its kind; this is checked before anything is
paid for.
-/

namespace CandyDrop.CollectionMint

/-- The token that an option names; blank is none. -/
def parse (option : Option String) : Except DeployFault (Option Address) :=
  match option with
  | none => .ok none
  | some text =>
    if Text.blank text then .ok none
    else match Address.ofText? (Text.trim text) with
      | some a => .ok (some a)
      | none => .error (.invalidCollectionMint text)

/-- Checks that the payer can make `mint` the collection of a machine. -/
def check (payer mint : Address) : Script Unit := do
  let _ ← (Mint.check mint).mapFailure (.collectionToken mint)
  let (_, metadata) ← TokenMetadata.get mint
  if metadata.updateAuthority = payer then
    let _ ← MasterEdition.check mint
    return ()
  else .fail (.deploy (.collectionAuthority metadata.updateAuthority payer))

/-- Makes `mint` the collection of a machine. -/
def set (payer machine mint : Address) : Script Signature :=
  Script.submit ⟨[Instruction.setCollection machine payer mint], []⟩

/-- The same, and records it. -/
def setAndRecord (payer machine mint : Address) (cache : Cache) : Script Cache := do
  let _ ← set payer machine mint
  { cache with program := { cache.program with collectionMint := mint.text } }.save

end CandyDrop.CollectionMint
