import CandyDrop.Config.Choice
import CandyDrop.Json.Printer

/-!
# What can be wrong with a configuration
-/

namespace CandyDrop

/-- A fault of the configuration. -/
inductive ConfigFault where
  /-- The file is no configuration. -/
  | unparsable (reason : String)
  /-- There is no file at the path. -/
  | unopened (path : String)
  | unknownCluster (name : String)
  | unknownStorage (name : String)
  | invalidDate (text : String)
  | invalidPrice (price : Binary64)
  /-- Sales end after a number of items that is none. -/
  | invalidAmount (value : Json)
  /-- Neither a date nor an amount ends the sales. -/
  | noEndKind
  /-- Not exactly one whitelist mode is chosen. -/
  | whitelistMode
  /-- A hash that has not 32 bytes. -/
  | hashLength (found : Nat)
  /-- Payments in a token cannot go to the account for the native one. -/
  | treasuryConflict
  /-- An account for a token is given without the token. -/
  | missingToken

namespace ConfigFault

/-- Prices in messages have all their digits and no exponent. -/
def priceStyle : DecimalStyle := ⟨none, false, false, 1⟩

/-- The text that the user sees. -/
def message : ConfigFault → String
  | unparsable reason => "Error parsing the config file: " ++ reason
  | unopened path => "Error opening the config file: " ++ path
  | unknownCluster name =>
    "Invalid cluster: " ++ name ++ ". Use 'mainnet-beta', 'testnet' or 'devnet'"
  | unknownStorage name => Storage.refusal name
  | invalidDate text => "Invalid date format: " ++ text
  | invalidPrice price =>
    "Invalid price: " ++ price.render priceStyle ++ ". Prices cannot be negative"
  | invalidAmount value => "Invalid end settings: invalid amount " ++ value.render
  | noEndKind => "Invalid end settings: endSettingType must be either 'date' or 'amount'"
  | whitelistMode =>
    "Invalid whitelist mint mode, use either 'burnEveryTime' or 'neverBurn'"
  | hashLength found =>
    "Hidden settings hash has to be 32 characters long, found " ++ found.repr
  | treasuryConflict =>
    "If spl-token-account or spl-token is set then sol-treasury-account cannot be set"
  | missingToken => "If spl-token-account is set, spl-token must also be set"

end ConfigFault

end CandyDrop
