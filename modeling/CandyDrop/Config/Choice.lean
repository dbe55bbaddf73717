/-!
# Clusters and storage services

The clusters that a drop can live on and the services that can keep its files, each chosen by
name. `ofName?` accepts exactly the names that `name` gives (`ofName?_name`).
-/

namespace CandyDrop

/-- A network of validators. -/
inductive Cluster where
  | mainnetBeta
  | testnet
  | devnet
  deriving DecidableEq

namespace Cluster

def name : Cluster → String
  | mainnetBeta => "mainnet-beta"
  | testnet => "testnet"
  | devnet => "devnet"

/-- Where a cluster is reached when no other address is given. -/
def url : Cluster → String
  | mainnetBeta => "https://api.metaplex.solana.com/"
  | testnet => "https://api.testnet.solana.com"
  | devnet => "https://api.devnet.solana.com"

/-- Whether a cluster is the one where tokens have a value. -/
def isMainnet : Cluster → Bool
  | mainnetBeta => true
  | _ => false

def ofName? (s : String) : Option Cluster := [mainnetBeta, testnet, devnet].find? (·.name == s)

theorem ofName?_name (c : Cluster) : ofName? c.name = some c := by cases c <;> rfl

end Cluster

/-- A service that keeps the files of a collection. -/
inductive Storage where
  | arweaveBundle
  | arweaveSol
  | arweave
  | ipfs
  | aws
  | nftStorage
  | pinata
  deriving DecidableEq

namespace Storage

/-- All services in the order in which they are offered. -/
def all : List Storage := [arweaveBundle, arweaveSol, arweave, ipfs, aws, nftStorage, pinata]

def name : Storage → String
  | arweaveBundle => "arweave-bundle"
  | arweaveSol => "arweave-sol"
  | arweave => "arweave"
  | ipfs => "ipfs"
  | aws => "aws"
  | nftStorage => "nft-storage"
  | pinata => "pinata"

def ofName? (s : String) : Option Storage := all.find? (·.name == s)

theorem ofName?_name (s : Storage) : ofName? s.name = some s := by cases s <;> rfl

/-- The names on offer, and the one that is not among them. -/
def refusal (got : String) : String :=
  "Storage option must either be " ++ String.intercalate ", " (all.map name) ++ ". Got: " ++ got

end Storage

end CandyDrop
