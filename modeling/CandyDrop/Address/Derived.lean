import CandyDrop.Address.Curve
import CandyDrop.Address.Known
import CandyDrop.Digest

/-!
# Derived addresses

A program can own addresses for which no key exists. Such an address is the hash of some seeds, a
bump byte, the program and a fixed word; the bump is the largest one for which the hash is no point
of the curve. This module holds the derivation and every address of this kind that a drop uses.
-/

namespace CandyDrop.Address

/-- The hash of `seeds` and `bump` under `program`, as an address. -/
def candidate (seeds : List Bytes) (program : Address) (bump : Nat) : Address where
  bytes := Digest.hash
    (seeds.flatten ++ UInt8.ofNat bump :: program.bytes ++ Bytes.ofText "ProgramDerivedAddress")
  length_bytes := Digest.length_hash _

/-- The first candidate that is no point of the curve, for bumps from `bump` down. The search
stops at the lowest bump whatever its candidate is. -/
def deriveFrom (seeds : List Bytes) (program : Address) : (bump : Nat) → Address × UInt8
  | 0 => (candidate seeds program 0, 0)
  | bump + 1 =>
    let a := candidate seeds program (bump + 1)
    if Curve.isPoint a.bytes then deriveFrom seeds program bump else (a, UInt8.ofNat (bump + 1))

/-- The address that `program` derives from `seeds`, and its bump. -/
def derive (seeds : List Bytes) (program : Address) : Address × UInt8 :=
  deriveFrom seeds program 255

/-- The seeds of the metadata account of `mint`. -/
def metadataSeeds (mint : Address) : List Bytes :=
  [Bytes.ofText "metadata", metadataProgram.bytes, mint.bytes]

/-- The account with the metadata of the token `mint`. -/
def metadata (mint : Address) : Address :=
  (derive (metadataSeeds mint) metadataProgram).1

/-- The account with the master edition of the token `mint`. -/
def masterEdition (mint : Address) : Address :=
  (derive (metadataSeeds mint ++ [Bytes.ofText "edition"]) metadataProgram).1

/-- The record that lets `authority` act for the collection `mint`. -/
def collectionAuthorityRecord (mint authority : Address) : Address :=
  (derive (metadataSeeds mint ++ [Bytes.ofText "collection_authority", authority.bytes])
    metadataProgram).1

/-- The account in which `wallet` holds the token `mint` by default. -/
def associatedToken (wallet mint : Address) : Address :=
  (derive [wallet.bytes, tokenProgram.bytes, mint.bytes] associatedTokenProgram).1

/-- The creator that `machine` writes into each token, and the bump. -/
def machineCreator (machine : Address) : Address × UInt8 :=
  derive [Bytes.ofText "candy_machine", machine.bytes] candyMachineProgram

/-- The account that names the collection of `machine`, and the bump. -/
def machineCollection (machine : Address) : Address × UInt8 :=
  derive [Bytes.ofText "collection", machine.bytes] candyMachineProgram

/-- The gateway token that `network` issues to `wallet`. -/
def gatewayToken (wallet network : Address) : Address :=
  (derive [wallet.bytes, Bytes.ofText "gateway", List.replicate 8 0, network.bytes]
    gatewayProgram).1

/-- The account through which gateway tokens of `network` expire on use. -/
def gatewayExpiry (network : Address) : Address :=
  (derive [network.bytes, Bytes.ofText "expire"] gatewayProgram).1

end CandyDrop.Address
