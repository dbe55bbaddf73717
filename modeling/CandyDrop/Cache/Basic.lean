import CandyDrop.Address.Basic
import CandyDrop.Failure
import CandyDrop.Table

/-!
# The record of a drop

The cache is a local record of a drop: which candy machine it has, the names and links of its
items by their positions, and which of them are on the chain already. It lets an interrupted
upload go on and tells what to mint from.
-/

namespace CandyDrop

/-- What is recorded of one item. -/
structure CacheItem where
  name : String
  link : String
  /-- Whether the item is written to the candy machine. -/
  onChain : Bool
  deriving DecidableEq

/-- What is recorded of the candy machine; the texts are empty while there is none. -/
structure CacheProgram where
  uuid : String
  candyMachine : String
  collectionMint : String
  deriving DecidableEq

/-- The record of a drop. -/
structure Cache where
  program : CacheProgram
  /-- By the decimal text of the position. -/
  items : Table CacheItem
  env : String
  cacheName : String
  /-- The file that the record is kept in. -/
  path : String

namespace CacheProgram

/-- No candy machine. -/
def none : CacheProgram := ⟨"", "", ""⟩

/-- A candy machine without a collection. -/
def ofMachine (machine : Address) : CacheProgram := ⟨machine.shortName, machine.text, ""⟩

end CacheProgram

namespace CacheItem

/-- The name and link to write, unless they are on the chain. -/
def pending? (item : CacheItem) : Option (String × String) :=
  if item.onChain then none else some (item.name, item.link)

end CacheItem

namespace Cache

/-- An empty record for a file. -/
def fresh (path env cacheName : String) : Cache :=
  ⟨CacheProgram.none, Table.empty, env, cacheName, path⟩

/-- The recorded candy machine, if there is one. -/
def machine (c : Cache) : Except CacheFault (Option Address) :=
  if c.program.candyMachine = "" then .ok none
  else match Address.ofText? c.program.candyMachine with
    | some a => .ok (some a)
    | none => .error (.invalidMachine c.program.candyMachine)

/-- Takes the items for not yet written. -/
def resetItems (c : Cache) : Cache :=
  { c with items := c.items.map fun item => { item with onChain := false } }

/-- Takes the items at some positions for written. -/
def markWritten (c : Cache) (positions : List Nat) : Cache :=
  { c with
    items := positions.foldl
      (fun items i => items.modify i.repr fun item => { item with onChain := true }) c.items }

end Cache

end CandyDrop
