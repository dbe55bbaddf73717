import CandyDrop.Json.Record
import CandyDrop.Machine.Basic

/-!
# Configuration of a drop

What the owner of a collection writes into the configuration file. Prices are in whole tokens and
dates are free text; `Config.baseUnits` and the functions `toMachine` turn them into what the candy
machine program takes. Every field has a value when it is left out.
-/

namespace CandyDrop

namespace Config

/-- Which end of sales was chosen, as two flags. -/
structure EndKind where
  date : Bool
  amount : Bool
  deriving DecidableEq

/-- The end of sales: a date or a number of items, in whatever form it was written. -/
structure EndSettings where
  kind : EndKind
  value : Json
  isKept_value : value.isKept = true

/-- Which whitelist mode was chosen, as two flags. -/
structure WhitelistKind where
  burnEveryTime : Bool
  neverBurn : Bool
  deriving DecidableEq

structure Whitelist where
  mode : WhitelistKind
  mint : Address
  presale : Bool
  discountPrice : Option Binary64
  deriving DecidableEq

/-- The hash is the bytes of a text. -/
structure HiddenSettings where
  name : String
  uri : String
  hash : String
  deriving DecidableEq

structure Creator where
  address : Option String
  share : UInt8
  deriving DecidableEq

end Config

/-- The content of a configuration file. -/
structure Config where
  price : Binary64
  /-- The number of items; an upload falls back to the number of images. -/
  number : Option UInt64
  gatekeeper : Option Machine.Gatekeeper
  solTreasuryAccount : Option Address
  splTokenAccount : Option Address
  splToken : Option Address
  goLiveDate : Option String
  endSettings : Option Config.EndSettings
  whitelist : Option Config.Whitelist
  hiddenSettings : Option Config.HiddenSettings
  storage : Option String
  ipfsInfuraProjectId : Option String
  ipfsInfuraSecret : Option String
  nftStorageKey : Option String
  pinataJwt : Option String
  pinataGateway : Option String
  awsS3Bucket : Option String
  arweaveJwk : Option String
  noRetainAuthority : Bool
  noMutable : Bool
  batchSize : Option UInt64
  /-- Not used: the short name always comes from the address of the candy machine. -/
  uuid : Option String
  symbol : String
  sellerFeeBasisPoints : UInt16
  creators : List Config.Creator
  /-- What the links of the items start with. -/
  baseUri : Option String

namespace Config

/-- The configuration of a file that leaves everything out. -/
def blank : Config where
  price := Binary64.zero false
  number := none
  gatekeeper := none
  solTreasuryAccount := none
  splTokenAccount := none
  splToken := none
  goLiveDate := none
  endSettings := none
  whitelist := none
  hiddenSettings := none
  storage := none
  ipfsInfuraProjectId := none
  ipfsInfuraSecret := none
  nftStorageKey := none
  pinataJwt := none
  pinataGateway := none
  awsS3Bucket := none
  arweaveJwk := none
  noRetainAuthority := false
  noMutable := false
  batchSize := none
  uuid := none
  symbol := ""
  sellerFeeBasisPoints := 0
  creators := []
  baseUri := none

/-- Whether the owner keeps the authority over the items. -/
def retainAuthority (c : Config) : Bool := !c.noRetainAuthority

/-- Whether the items can be changed after minting. -/
def isMutable (c : Config) : Bool := !c.noMutable

end Config

end CandyDrop
