import CandyDrop.Machine.Layout
import CandyDrop.Token.Instructions

/-!
# Instructions for candy machines

The calls of the candy machine program. Each starts with eight bytes that name it.
-/

namespace CandyDrop

/-- A line of a candy machine: the name and the link of the item at a position. -/
structure ConfigLine where
  index : UInt32
  name : String
  uri : String
  deriving DecidableEq

namespace Instruction

open AccountUse

/-- A call of the candy machine program. -/
def machineCall (name : String) (accounts : List AccountUse) (arguments : Bytes) :
    Instruction where
  program := Address.candyMachineProgram
  accounts := accounts
  data := discriminator "global" name ++ arguments

/-- Sets up a candy machine in an account that was made for it. -/
def initializeMachine (machine wallet payer : Address) (tokenMint : Option Address)
    (data : MachineData) : Instruction :=
  machineCall "initialize_candy_machine"
    ([writes machine, reads wallet, reads payer, signs payer, reads Address.systemProgram,
      reads Address.rentSysvar] ++ (tokenMint.map reads).toList)
    data.encode

/-- The bytes of a line; its position follows from that of the first line. -/
def lineBytes (line : ConfigLine) : Bytes := Borsh.text line.name ++ Borsh.text line.uri

/-- Writes lines from a position on. -/
def addConfigLines (machine payer : Address) (start : UInt32) (lines : List ConfigLine) :
    Instruction :=
  machineCall "add_config_lines" [writes machine, signs payer]
    (Borsh.u32 start.toNat ++ Borsh.list lineBytes lines)

/-- Makes a token the collection of a candy machine. -/
def setCollection (machine payer mint : Address) : Instruction :=
  let collection := (Address.machineCollection machine).1
  machineCall "set_collection"
    [writes machine, signs payer, writes collection, signs payer, reads Address.systemProgram,
     reads Address.rentSysvar, reads (Address.metadata mint), reads mint,
     reads (Address.masterEdition mint),
     writes (Address.collectionAuthorityRecord mint collection), reads Address.metadataProgram]
    []

/-- Mints an item into `mint`; `extras` are what the settings of the machine require. -/
def mintItem (machine payer wallet mint : Address) (extras : List AccountUse) : Instruction :=
  let creator := Address.machineCreator machine
  machineCall "mint_nft"
    ([writes machine, reads creator.1, signs payer, writes wallet, writes (Address.metadata mint),
      writes mint, signs payer, signs payer, writes (Address.masterEdition mint),
      reads Address.metadataProgram, reads Address.tokenProgram, reads Address.systemProgram,
      reads Address.rentSysvar, reads Address.clockSysvar, reads Address.slotHashesSysvar,
      reads Address.instructionsSysvar] ++ extras)
    (Borsh.u8 creator.2)

/-- Puts the minted item into the collection of its machine. -/
def joinCollection (machine payer mint collectionMint authority : Address) : Instruction :=
  let collection := (Address.machineCollection machine).1
  machineCall "set_collection_during_mint"
    [reads machine, reads (Address.metadata mint), signs payer, writes collection,
     reads Address.metadataProgram, reads Address.instructionsSysvar, reads collectionMint,
     reads (Address.metadata collectionMint), reads (Address.masterEdition collectionMint),
     reads authority, reads (Address.collectionAuthorityRecord collectionMint collection)]
    []

end Instruction

end CandyDrop
