import CandyDrop.Checks.Collection
import CandyDrop.Deploy.Settings
import CandyDrop.Machine.Instructions

/-!
# Creating a candy machine

One transaction makes the account and sets up the machine in it. It is sent only if the payer can
pay the rent for the size of the account.
-/

namespace CandyDrop

namespace MachineData

/-- The data of a new machine. The supply of each item is one, which is written as zero copies. -/
def ofSettings (settings : Settings) (details : CollectionDetails) (items : UInt64)
    (shortName : String) : MachineData where
  shortName
  price := settings.price
  symbol := details.symbol
  sellerFeeBasisPoints := details.sellerFeeBasisPoints
  maxSupply := 0
  isMutable := settings.isMutable
  retainAuthority := settings.retainAuthority
  goLiveDate := settings.goLiveDate
  endSettings := settings.endSettings
  creators := details.creators
  hiddenSettings := settings.hiddenSettings
  whitelist := settings.whitelist
  itemsAvailable := items
  gatekeeper := settings.gatekeeper

end MachineData

namespace Machine

/-- The transaction that creates a machine. -/
def creation (payer machine : Address) (settings : Settings) (data : MachineData)
    (space lamports : UInt64) : Transaction where
  instructions :=
    [Instruction.createAccount payer machine lamports space Address.candyMachineProgram,
     Instruction.initializeMachine machine settings.wallet payer settings.tokenMint data]
  signers := [machine]

/-- Creates a machine at an address that nobody has yet. -/
def initializeAt (payer machine : Address) (settings : Settings) (data : MachineData) :
    Script Signature :=
  match data.space? with
  | none => .fail (.deploy (.tooManyItems data.itemsAvailable))
  | some space => do
    let lamports ← Script.rent space
    let balance ← Script.balance payer
    if balance < lamports then .fail (.deploy (.balanceTooLow balance lamports))
    else Script.submit (creation payer machine settings data space lamports)

/-- Creates a machine for some items at a new address. -/
def create (payer : Address) (settings : Settings) (details : CollectionDetails)
    (items : UInt64) : Script Address := do
  let machine ← Script.request .freshKey
  let data := MachineData.ofSettings settings details items machine.shortName
  let _ ← initializeAt payer machine settings data
  return machine

end Machine

end CandyDrop
