import CandyDrop.Config.File
import CandyDrop.Json.Form

/-!
# Faults of configuration files

The form of a configuration, which says what is wrong with a file that is none.
-/

namespace CandyDrop

open Json (Form)

namespace Machine.Gatekeeper

def form : Form := Form.Record.form
  { name := "GatekeeperConfig"
    fills := false
    fields :=
      [⟨"gatekeeperNetwork", .required, Form.address⟩, ⟨"expireOnUse", .defaulted, Form.flag⟩] }

end Machine.Gatekeeper

namespace Config

def EndKind.form : Form := Form.Record.form
  { name := "EndSettingTypeFlags"
    fills := false
    fields := [⟨"date", .defaulted, Form.flag⟩, ⟨"amount", .defaulted, Form.flag⟩] }

def EndSettings.form : Form := Form.Record.form
  { name := "EndSettings"
    fills := false
    fields := [⟨"endSettingType", .required, EndKind.form⟩, ⟨"value", .required, Form.any⟩] }

def WhitelistKind.form : Form := Form.Record.form
  { name := "WhitelistMintModeFlags"
    fills := false
    fields := [⟨"burnEveryTime", .defaulted, Form.flag⟩, ⟨"neverBurn", .defaulted, Form.flag⟩] }

def Whitelist.form : Form := Form.Record.form
  { name := "WhitelistMintSettings"
    fills := false
    fields :=
      [⟨"mode", .required, WhitelistKind.form⟩, ⟨"mint", .required, Form.address⟩,
       ⟨"presale", .defaulted, Form.flag⟩,
       ⟨"discountPrice", .omissible, Form.optional Form.real⟩] }

def HiddenSettings.form : Form := Form.Record.form
  { name := "HiddenSettings"
    fills := false
    fields :=
      [⟨"name", .required, Form.anyText⟩, ⟨"uri", .required, Form.anyText⟩,
       ⟨"hash", .required, Form.anyText⟩] }

def Creator.form : Form := Form.Record.form
  { name := "Creator"
    fills := false
    fields :=
      [⟨"address", .omissible, Form.optional Form.anyText⟩,
       ⟨"share", .defaulted, Form.natural 8⟩] }

/-- The form of the field with a name. -/
def fieldForm (name : String) : Form :=
  if name = "price" then Form.real
  else if ["number", "batchSize"].contains name then Form.optional (Form.natural 64)
  else if name = "gatekeeper" then Form.optional Machine.Gatekeeper.form
  else if ["solTreasuryAccount", "splTokenAccount", "splToken"].contains name then
    Form.optional Form.address
  else if name = "endSettings" then Form.optional EndSettings.form
  else if name = "whitelistMintSettings" then Form.optional Whitelist.form
  else if name = "hiddenSettings" then Form.optional HiddenSettings.form
  else if ["noRetainAuthority", "noMutable"].contains name then Form.flag
  else if name = "symbol" then Form.anyText
  else if name = "sellerFeeBasisPoints" then Form.natural 16
  else if name = "creators" then Form.list Creator.form
  else Form.optional Form.anyText

/-- The form of a configuration. -/
def form : Form := Form.Record.form
  { name := "ConfigData"
    fills := true
    fields := fieldNames.map fun name => ⟨name, .defaulted, fieldForm name⟩ }

end Config

end CandyDrop
