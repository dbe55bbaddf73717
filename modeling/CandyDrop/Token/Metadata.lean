import CandyDrop.Address.Derived
import CandyDrop.Machine.Layout
import CandyDrop.Script

/-!
# Metadata of a token

Two accounts belong to the mint of a token that stands for something: its metadata, with a name
and with the wallet that may change it, and its master edition, which says that there is one only.
-/

namespace CandyDrop

/-- The metadata of a token. -/
structure TokenMetadata where
  updateAuthority : Address
  mint : Address
  name : String
  symbol : String
  uri : String
  deriving DecidableEq

namespace TokenMetadata

open Borsh (Decoder)

/-- The largest number of a kind of account. -/
def maxKind : UInt8 := 12

/-- Reads the parts up to the number of editions; what follows may be anything. -/
def decode : Decoder TokenMetadata := do
  let kind ← Decoder.u8
  if maxKind < kind then failure
  let updateAuthority ← Decoder.address
  let mint ← Decoder.address
  let name ← Decoder.text
  let symbol ← Decoder.text
  let uri ← Decoder.text
  let _fee ← Decoder.u16
  let _creators ← Decoder.option (Decoder.list Machine.Creator.decode)
  let _sold ← Decoder.bool
  let _mutable ← Decoder.bool
  let _nonce ← Decoder.option Decoder.u8
  return ⟨updateAuthority, mint, name, symbol, uri⟩

/-- The metadata in the account `address`. -/
def ofAccount (address : Address) : Option Bytes → Except AccountFault TokenMetadata
  | none => .error (.metadataNotFound address)
  | some bs =>
    match decode bs with
    | some (m, _) => .ok m
    | none => .error (.metadataMalformed address)

/-- Reads the metadata of the token `mint`; also gives its address. -/
def get (mint : Address) : Script (Address × TokenMetadata) := do
  let address := Address.metadata mint
  let content ← Script.account address
  let m ← Script.ofExcept .account (ofAccount address content)
  return (address, m)

end TokenMetadata

namespace MasterEdition

/-- Whether the content of an account is a master edition, of the first or the second version. -/
def isMaster : Bytes → Bool
  | kind :: _ => kind == 2 || kind == 6
  | [] => false

/-- What is wrong with an account that should be a master edition. -/
def ofAccount (address : Address) : Option Bytes → Except AccountFault Unit
  | none => .error (.editionNotFound address)
  | some bs => if isMaster bs then .ok () else .error (.editionInvalid address)

/-- The master edition of the token `mint`, which has to exist. -/
def check (mint : Address) : Script Address := do
  let address := Address.masterEdition mint
  let content ← Script.account address
  Script.ofExcept .account (ofAccount address content)
  return address

end MasterEdition

end CandyDrop
