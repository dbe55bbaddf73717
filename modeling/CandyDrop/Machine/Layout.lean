import CandyDrop.Borsh
import CandyDrop.Digest
import CandyDrop.Machine.Basic

/-!
# The accounts of a candy machine

An account of the program starts with eight bytes that name its kind, the hash of that name. This
module holds the contents of a candy machine account, both ways, the contents of the account that
names its collection, and the size that an account needs (`MachineData.space?`).
-/

namespace CandyDrop

/-- Why the program does not take the content of an account. -/
inductive LayoutFault where
  /-- Fewer than eight bytes. -/
  | noDiscriminator
  /-- Another kind of account. -/
  | wrongDiscriminator
  /-- The rest is malformed. -/
  | malformed
  deriving DecidableEq

/-- The eight bytes that name something of the program. -/
def discriminator (scope name : String) : Bytes :=
  (Digest.hash (Bytes.ofText (scope ++ ":" ++ name))).take 8

/-- Reads an account of the kind `name`; what follows its content is ignored. -/
def readAccount {α : Type} (name : String) (content : Borsh.Decoder α) (bs : Bytes) :
    Except LayoutFault α :=
  if bs.length < 8 then .error .noDiscriminator
  else if bs.take 8 ≠ discriminator "account" name then .error .wrongDiscriminator
  else match content (bs.drop 8) with
    | some (x, _) => .ok x
    | none => .error .malformed

namespace Machine

def Creator.encode (c : Creator) : Bytes :=
  Borsh.address c.address ++ Borsh.bool c.verified ++ Borsh.u8 c.share

def Creator.decode : Borsh.Decoder Creator :=
  return ⟨← Borsh.Decoder.address, ← Borsh.Decoder.bool, ← Borsh.Decoder.u8⟩

def EndSettings.encode : EndSettings → Bytes
  | .date n => 0 :: Borsh.u64 n
  | .amount n => 1 :: Borsh.u64 n

def EndSettings.decode : Borsh.Decoder EndSettings := do
  match ← Borsh.Decoder.u8 with
  | 0 => .date <$> Borsh.Decoder.u64
  | 1 => .amount <$> Borsh.Decoder.u64
  | _ => failure

def WhitelistMode.encode : WhitelistMode → Bytes
  | .burnEveryTime => [0]
  | .neverBurn => [1]

def WhitelistMode.decode : Borsh.Decoder WhitelistMode := do
  match ← Borsh.Decoder.u8 with
  | 0 => pure .burnEveryTime
  | 1 => pure .neverBurn
  | _ => failure

def Whitelist.encode (w : Whitelist) : Bytes :=
  w.mode.encode ++ Borsh.address w.mint ++ Borsh.bool w.presale
    ++ Borsh.option Borsh.u64 w.discountPrice

def Whitelist.decode : Borsh.Decoder Whitelist :=
  return ⟨← WhitelistMode.decode, ← Borsh.Decoder.address, ← Borsh.Decoder.bool,
    ← Borsh.Decoder.option Borsh.Decoder.u64⟩

def HiddenSettings.encode (h : HiddenSettings) : Bytes :=
  Borsh.text h.name ++ Borsh.text h.uri ++ h.hash

def HiddenSettings.decode : Borsh.Decoder HiddenSettings := do
  let name ← Borsh.Decoder.text
  let uri ← Borsh.Decoder.text
  let hash ← Borsh.Decoder.take 32
  if h : hash.length = 32 then pure ⟨name, uri, hash, h⟩ else failure

def Gatekeeper.encode (g : Gatekeeper) : Bytes :=
  Borsh.address g.network ++ Borsh.bool g.expireOnUse

def Gatekeeper.decode : Borsh.Decoder Gatekeeper :=
  return ⟨← Borsh.Decoder.address, ← Borsh.Decoder.bool⟩

end Machine

namespace MachineData

def encode (d : MachineData) : Bytes :=
  Borsh.text d.shortName ++ Borsh.u64 d.price ++ Borsh.text d.symbol
    ++ Borsh.u16 d.sellerFeeBasisPoints ++ Borsh.u64 d.maxSupply ++ Borsh.bool d.isMutable
    ++ Borsh.bool d.retainAuthority ++ Borsh.option Borsh.i64 d.goLiveDate
    ++ Borsh.option Machine.EndSettings.encode d.endSettings
    ++ Borsh.list Machine.Creator.encode d.creators
    ++ Borsh.option Machine.HiddenSettings.encode d.hiddenSettings
    ++ Borsh.option Machine.Whitelist.encode d.whitelist ++ Borsh.u64 d.itemsAvailable
    ++ Borsh.option Machine.Gatekeeper.encode d.gatekeeper

open Borsh.Decoder in
def decode : Borsh.Decoder MachineData :=
  return {
    shortName := ← text
    price := ← u64
    symbol := ← text
    sellerFeeBasisPoints := ← u16
    maxSupply := ← u64
    isMutable := ← bool
    retainAuthority := ← bool
    goLiveDate := ← option i64
    endSettings := ← option Machine.EndSettings.decode
    creators := ← list Machine.Creator.decode
    hiddenSettings := ← option Machine.HiddenSettings.decode
    whitelist := ← option Machine.Whitelist.decode
    itemsAvailable := ← u64
    gatekeeper := ← option Machine.Gatekeeper.decode }

/-- The size of an account without config lines: room for every part at its largest. -/
def fixedSize : UInt64 :=
  8 -- discriminator
  + 32 -- authority
  + 32 -- wallet
  + 33 -- token mint
  + (4 + 6) -- short name
  + 8 -- price
  + 8 -- items available
  + 9 -- go live date
  + 10 -- end settings
  + (4 + 10) -- symbol
  + 2 -- seller fee
  + (4 + 5 * 34) -- creators
  + 8 -- max supply
  + 1 -- mutable
  + 1 -- retain authority
  + 1 -- whether settings are hidden
  + (4 + 32) -- hidden name
  + (4 + 200) -- hidden link
  + 32 -- hidden hash
  + 4 -- number of lines
  + 8 -- items redeemed
  + 1 -- whether there is a whitelist
  + 1 -- whitelist mode
  + 1 -- presale
  + 9 -- discount price
  + 32 -- whitelist mint
  + (1 + 32 + 1) -- gatekeeper

/-- The size of one config line: a name of at most 32 bytes and a link of at most 200. -/
def lineSize : UInt64 := 4 + 32 + 4 + 200

/-- The sum of two numbers, if 64 bits hold it. -/
def add? (a b : UInt64) : Option UInt64 :=
  if a.toNat + b.toNat < UInt64.size then some (a + b) else none

/-- The product of two numbers, if 64 bits hold it. -/
def mul? (a b : UInt64) : Option UInt64 :=
  if a.toNat * b.toNat < UInt64.size then some (a * b) else none

/-- The size of the account for these data, if 64 bits hold it. Without hidden settings every item
has a line and two bits. -/
def space? (d : MachineData) : Option UInt64 :=
  if d.hiddenSettings.isSome then some fixedSize
  else do
    let lines ← mul? d.itemsAvailable lineSize
    let space ← add? lines (fixedSize + 4 + 8)
    let bits ← mul? (d.itemsAvailable / 8 + 1) 2
    add? space bits

end MachineData

namespace Machine

def encode (m : Machine) : Bytes :=
  Borsh.address m.authority ++ Borsh.address m.wallet ++ Borsh.option Borsh.address m.tokenMint
    ++ Borsh.u64 m.itemsRedeemed ++ m.data.encode

open Borsh.Decoder in
def decode : Borsh.Decoder Machine :=
  return {
    authority := ← address
    wallet := ← address
    tokenMint := ← option address
    itemsRedeemed := ← u64
    data := ← MachineData.decode }

/-- The machine in an account. -/
def ofAccount (bs : Bytes) : Except LayoutFault Machine := readAccount "CandyMachine" decode bs

/-- The account of a machine. -/
def toAccount (m : Machine) : Bytes := discriminator "account" "CandyMachine" ++ m.encode

/-- The token that stands for the collection of a machine. -/
structure Collection where
  mint : Address
  machine : Address
  deriving DecidableEq

/-- The collection in an account. -/
def Collection.ofAccount (bs : Bytes) : Except LayoutFault Collection :=
  readAccount "CollectionPDA" (return ⟨← Borsh.Decoder.address, ← Borsh.Decoder.address⟩) bs

end Machine

end CandyDrop
