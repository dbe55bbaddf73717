import CandyDrop.Config.Basic
import CandyDrop.Json.Reader

/-!
# Configuration files

The JSON form of a configuration, both ways. Names of fields are in camel case, addresses are
texts, and an optional field without a value is `null`. A file may leave out any field of the
configuration itself.
-/

namespace CandyDrop

namespace Address

/-- The text of an address. -/
def toJson (a : Address) : Json := .text a.text

def ofJson? (j : Json) : Option Address := j.toText?.bind ofText?

end Address

namespace Machine.Gatekeeper

def toJson (g : Gatekeeper) : Json :=
  .object [("gatekeeperNetwork", g.network.toJson), ("expireOnUse", .bool g.expireOnUse)]

def ofJson? (j : Json) : Option Gatekeeper := do
  let fs ← j.fields? ["gatekeeperNetwork", "expireOnUse"] false
  let network ← fs.required "gatekeeperNetwork" Address.ofJson?
  let expireOnUse ← fs.defaulted "expireOnUse" false Json.toBool?
  pure ⟨network, expireOnUse⟩

end Machine.Gatekeeper

namespace Config

def EndKind.toJson (k : EndKind) : Json :=
  .object [("date", .bool k.date), ("amount", .bool k.amount)]

def EndKind.ofJson? (j : Json) : Option EndKind := do
  let fs ← j.fields? ["date", "amount"] false
  let date ← fs.defaulted "date" false Json.toBool?
  let amount ← fs.defaulted "amount" false Json.toBool?
  pure ⟨date, amount⟩

def EndSettings.toJson (e : EndSettings) : Json :=
  .object [("endSettingType", e.kind.toJson), ("value", e.value)]

def EndSettings.ofJson? (j : Json) : Option EndSettings := do
  let fs ← j.fields? ["endSettingType", "value"] false
  let kind ← fs.required "endSettingType" EndKind.ofJson?
  let value ← fs.required "value" fun v =>
    match h : v.keep? with
    | some kept => some (⟨kept, Json.isKept_of_keep? h⟩ : { v : Json // v.isKept = true })
    | none => none
  pure ⟨kind, value.1, value.2⟩

def WhitelistKind.toJson (k : WhitelistKind) : Json :=
  .object [("burnEveryTime", .bool k.burnEveryTime), ("neverBurn", .bool k.neverBurn)]

def WhitelistKind.ofJson? (j : Json) : Option WhitelistKind := do
  let fs ← j.fields? ["burnEveryTime", "neverBurn"] false
  let burnEveryTime ← fs.defaulted "burnEveryTime" false Json.toBool?
  let neverBurn ← fs.defaulted "neverBurn" false Json.toBool?
  pure ⟨burnEveryTime, neverBurn⟩

def Whitelist.toJson (w : Whitelist) : Json :=
  .object
    [("mode", w.mode.toJson), ("mint", w.mint.toJson), ("presale", .bool w.presale),
     ("discountPrice", Json.ofOption Json.ofReal w.discountPrice)]

def Whitelist.ofJson? (j : Json) : Option Whitelist := do
  let fs ← j.fields? ["mode", "mint", "presale", "discountPrice"] false
  let mode ← fs.required "mode" WhitelistKind.ofJson?
  let mint ← fs.required "mint" Address.ofJson?
  let presale ← fs.defaulted "presale" false Json.toBool?
  let discountPrice ← fs.optional "discountPrice" Json.toReal?
  pure ⟨mode, mint, presale, discountPrice⟩

def HiddenSettings.toJson (h : HiddenSettings) : Json :=
  .object [("name", .text h.name), ("uri", .text h.uri), ("hash", .text h.hash)]

def HiddenSettings.ofJson? (j : Json) : Option HiddenSettings := do
  let fs ← j.fields? ["name", "uri", "hash"] false
  let name ← fs.required "name" Json.toText?
  let uri ← fs.required "uri" Json.toText?
  let hash ← fs.required "hash" Json.toText?
  pure ⟨name, uri, hash⟩

def Creator.toJson (c : Creator) : Json :=
  .object [("address", Json.ofOption Json.text c.address), ("share", Json.ofNat c.share.toNat)]

def Creator.ofJson? (j : Json) : Option Creator := do
  let fs ← j.fields? ["address", "share"] false
  let address ← fs.optional "address" Json.toText?
  let share ← fs.defaulted "share" 0 Json.toUInt8?
  pure ⟨address, share⟩

/-- The names of the fields in order. -/
def fieldNames : List String :=
  ["price", "number", "gatekeeper", "solTreasuryAccount", "splTokenAccount", "splToken",
   "goLiveDate", "endSettings", "whitelistMintSettings", "hiddenSettings", "storage",
   "ipfsInfuraProjectId", "ipfsInfuraSecret", "nftStorageKey", "pinataJwt", "pinataGateway",
   "awsS3Bucket", "arweaveJwk", "noRetainAuthority", "noMutable", "batchSize", "uuid", "symbol",
   "sellerFeeBasisPoints", "creators", "baseUri"]

/-- The JSON form of a configuration. -/
def toJson (c : Config) : Json :=
  let text := Json.ofOption Json.text
  let natural := Json.ofOption fun n : UInt64 => Json.ofNat n.toNat
  let address := Json.ofOption Address.toJson
  .object
    [("price", Json.ofReal c.price),
     ("number", natural c.number),
     ("gatekeeper", Json.ofOption Machine.Gatekeeper.toJson c.gatekeeper),
     ("solTreasuryAccount", address c.solTreasuryAccount),
     ("splTokenAccount", address c.splTokenAccount),
     ("splToken", address c.splToken),
     ("goLiveDate", text c.goLiveDate),
     ("endSettings", Json.ofOption EndSettings.toJson c.endSettings),
     ("whitelistMintSettings", Json.ofOption Whitelist.toJson c.whitelist),
     ("hiddenSettings", Json.ofOption HiddenSettings.toJson c.hiddenSettings),
     ("storage", text c.storage),
     ("ipfsInfuraProjectId", text c.ipfsInfuraProjectId),
     ("ipfsInfuraSecret", text c.ipfsInfuraSecret),
     ("nftStorageKey", text c.nftStorageKey),
     ("pinataJwt", text c.pinataJwt),
     ("pinataGateway", text c.pinataGateway),
     ("awsS3Bucket", text c.awsS3Bucket),
     ("arweaveJwk", text c.arweaveJwk),
     ("noRetainAuthority", .bool c.noRetainAuthority),
     ("noMutable", .bool c.noMutable),
     ("batchSize", natural c.batchSize),
     ("uuid", text c.uuid),
     ("symbol", .text c.symbol),
     ("sellerFeeBasisPoints", Json.ofNat c.sellerFeeBasisPoints.toNat),
     ("creators", .array (c.creators.map Creator.toJson)),
     ("baseUri", text c.baseUri)]

/-- The configuration of a JSON value. -/
def ofJson? (j : Json) : Option Config := do
  let fs ← j.fields? fieldNames true
  let text (name : String) := fs.optional name Json.toText?
  let natural (name : String) := fs.optional name Json.toUInt64?
  let address (name : String) := fs.optional name Address.ofJson?
  let flag (name : String) := fs.defaulted name false Json.toBool?
  pure {
    price := ← fs.defaulted "price" (Binary64.zero false) Json.toReal?
    number := ← natural "number"
    gatekeeper := ← fs.optional "gatekeeper" Machine.Gatekeeper.ofJson?
    solTreasuryAccount := ← address "solTreasuryAccount"
    splTokenAccount := ← address "splTokenAccount"
    splToken := ← address "splToken"
    goLiveDate := ← text "goLiveDate"
    endSettings := ← fs.optional "endSettings" EndSettings.ofJson?
    whitelist := ← fs.optional "whitelistMintSettings" Whitelist.ofJson?
    hiddenSettings := ← fs.optional "hiddenSettings" HiddenSettings.ofJson?
    storage := ← text "storage"
    ipfsInfuraProjectId := ← text "ipfsInfuraProjectId"
    ipfsInfuraSecret := ← text "ipfsInfuraSecret"
    nftStorageKey := ← text "nftStorageKey"
    pinataJwt := ← text "pinataJwt"
    pinataGateway := ← text "pinataGateway"
    awsS3Bucket := ← text "awsS3Bucket"
    arweaveJwk := ← text "arweaveJwk"
    noRetainAuthority := ← flag "noRetainAuthority"
    noMutable := ← flag "noMutable"
    batchSize := ← natural "batchSize"
    uuid := ← text "uuid"
    symbol := ← fs.defaulted "symbol" "" Json.toText?
    sellerFeeBasisPoints := ← fs.defaulted "sellerFeeBasisPoints" 0 Json.toUInt16?
    creators := ← fs.defaulted "creators" [] (Json.toList? Creator.ofJson?)
    baseUri := ← text "baseUri" }

/-- The configuration in the bytes of a file. -/
def ofBytes? (bs : Bytes) : Option Config := (Json.ofBytes? bs).bind ofJson?

end Config

end CandyDrop
