import CandyDrop.Address.Basic

/-!
# Candy machines

A candy machine is an account that sells the items of one collection. `MachineData` is what its
owner chooses when it is created; `Machine` is the account as it stands, with the number of items
that were already redeemed. `remaining` is what is left to mint.
-/

namespace CandyDrop

namespace Machine

/-- Someone who made the collection, with a share of the royalties in percent. -/
structure Creator where
  address : Address
  verified : Bool
  share : UInt8
  deriving DecidableEq

/-- When sales end: at a time, in seconds of the Unix clock, or after a number of items. -/
inductive EndSettings where
  | date (seconds : UInt64)
  | amount (items : UInt64)
  deriving DecidableEq

/-- What happens to a whitelist token when its holder mints. -/
inductive WhitelistMode where
  | burnEveryTime
  | neverBurn
  deriving DecidableEq

/-- Holders of the token `mint` may mint early or at a discount. -/
structure Whitelist where
  mode : WhitelistMode
  mint : Address
  presale : Bool
  discountPrice : Option UInt64
  deriving DecidableEq

/-- One name and link for all items, and the hash of what will be revealed. -/
structure HiddenSettings where
  name : String
  uri : String
  hash : Bytes
  length_hash : hash.length = 32

-- The length is a proof and takes no part in the comparison.
instance : DecidableEq HiddenSettings := fun a b =>
  decidable_of_iff (a.name = b.name ∧ a.uri = b.uri ∧ a.hash = b.hash) <| by
    cases a
    cases b
    simp only [HiddenSettings.mk.injEq]

/-- Only holders of a gateway token of this network may mint. -/
structure Gatekeeper where
  network : Address
  expireOnUse : Bool
  deriving DecidableEq

end Machine

/-- What is chosen when a candy machine is created. -/
structure MachineData where
  shortName : String
  /-- In lamports, or in base units of the payment token. -/
  price : UInt64
  symbol : String
  sellerFeeBasisPoints : UInt16
  maxSupply : UInt64
  isMutable : Bool
  retainAuthority : Bool
  goLiveDate : Option Int64
  endSettings : Option Machine.EndSettings
  creators : List Machine.Creator
  hiddenSettings : Option Machine.HiddenSettings
  whitelist : Option Machine.Whitelist
  itemsAvailable : UInt64
  gatekeeper : Option Machine.Gatekeeper
  deriving DecidableEq

/-- A candy machine account. -/
structure Machine where
  authority : Address
  /-- Where payments go. -/
  wallet : Address
  /-- The token that payments are made in; `none` is the native one. -/
  tokenMint : Option Address
  itemsRedeemed : UInt64
  data : MachineData
  deriving DecidableEq

namespace Machine

/-- The number of items left to mint. -/
def remaining (m : Machine) : Nat := m.data.itemsAvailable.toNat - m.itemsRedeemed.toNat

end Machine

end CandyDrop
