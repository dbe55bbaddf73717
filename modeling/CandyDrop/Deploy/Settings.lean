import CandyDrop.Address.Derived
import CandyDrop.Config.Units
import CandyDrop.Token.Account

/-!
# Settings of a candy machine

The configuration in the units of the program. What needs no account is converted first
(`LocalSettings.ofConfig`), so that a faulty configuration is refused before the cluster is asked;
then the treasury is read (`Treasury.resolve`), whose token decides how prices are converted.
-/

namespace CandyDrop

/-- Where payments go and in what. -/
structure Treasury where
  wallet : Address
  /-- `none` for the native token. -/
  token : Option Address
  decimals : UInt8
  deriving DecidableEq

/-- The settings of a candy machine. -/
structure Settings where
  price : UInt64
  wallet : Address
  tokenMint : Option Address
  goLiveDate : Option Int64
  endSettings : Option Machine.EndSettings
  whitelist : Option Machine.Whitelist
  hiddenSettings : Option Machine.HiddenSettings
  gatekeeper : Option Machine.Gatekeeper
  retainAuthority : Bool
  isMutable : Bool
  deriving DecidableEq

/-- The settings that need no account. -/
structure LocalSettings where
  goLiveDate : Option Int64
  endSettings : Option Machine.EndSettings
  hiddenSettings : Option Machine.HiddenSettings
  deriving DecidableEq

namespace LocalSettings

/-- Whether a whitelist could be converted whatever the decimals are. -/
def checkWhitelist : Option Config.Whitelist → Except ConfigFault Unit
  | none => .ok ()
  | some w => do
    let _ ← w.mode.toMachine
    match w.discountPrice with
    | some price => Config.checkPrice price
    | none => return ()

/-- Converts what needs no account and checks the rest, in a fixed order. -/
def ofConfig (now : Int) (config : Config) : Except ConfigFault LocalSettings := do
  let goLiveDate ← Config.goLiveSeconds now config.goLiveDate
  let endSettings ← Config.convert (Config.EndSettings.toMachine now) config.endSettings
  let hiddenSettings ← Config.convert Config.HiddenSettings.toMachine config.hiddenSettings
  Config.checkPrice config.price
  checkWhitelist config.whitelist
  return ⟨goLiveDate, endSettings, hiddenSettings⟩

end LocalSettings

namespace Treasury

/-- Reads the token that payments are made in and the account that they go to. Without one of its
own it is the account in which the payer holds the token by default. -/
def ofToken (payer token : Address) (account : Option Address) : Script Treasury := do
  let mint ← Mint.check token
  let treasury := account.getD (Address.associatedToken payer token)
  let holder ← TokenAccount.check treasury
  if holder.mint = token then return ⟨treasury, some token, mint.decimals⟩
  else .fail (.account (.treasuryMismatch treasury token))

/-- Where payments go. -/
def resolve (config : Config) (payer : Address) : Script Treasury :=
  match config.splToken, config.splTokenAccount with
  | some token, account =>
    if config.solTreasuryAccount.isSome then .fail (.config .treasuryConflict)
    else ofToken payer token account
  | none, some _ => .fail (.config .missingToken)
  | none, none =>
    .done ⟨config.solTreasuryAccount.getD payer, none, Config.nativeDecimals⟩

end Treasury

namespace Settings

/-- Puts the settings together; prices are in the token of the treasury. -/
def assemble (config : Config) (parts : LocalSettings) (treasury : Treasury) :
    Except ConfigFault Settings := do
  let whitelist ← Config.convert (Config.Whitelist.toMachine treasury.decimals) config.whitelist
  let price ← Config.baseUnits config.price treasury.decimals
  return {
    price
    wallet := treasury.wallet
    tokenMint := treasury.token
    goLiveDate := parts.goLiveDate
    endSettings := parts.endSettings
    whitelist
    hiddenSettings := parts.hiddenSettings
    gatekeeper := config.gatekeeper
    retainAuthority := config.retainAuthority
    isMutable := config.isMutable }

/-- The settings of a configuration for a payer at the moment `now`. -/
def resolve (config : Config) (payer : Address) (now : Int) : Script Settings := do
  let parts ← Script.ofExcept .config (LocalSettings.ofConfig now config)
  let treasury ← Treasury.resolve config payer
  Script.ofExcept .config (assemble config parts treasury)

end Settings

end CandyDrop
