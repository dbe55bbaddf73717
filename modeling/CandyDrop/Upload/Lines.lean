import CandyDrop.Cache.Basic
import CandyDrop.Machine.Instructions
import CandyDrop.Script

/-!
# Config lines

What is still to be written to a candy machine, in batches that fit into one transaction. The
items are looked up by position (`Slot.ofItems`); those on the chain are left out, and because only
the position of the first line of a batch is sent, a batch ends where one is left out. A batch has
at most 17 lines and 1000 bytes (`divide`).
-/

namespace CandyDrop

/-- Lines that are sent together. -/
abbrev Batch := List ConfigLine

namespace ConfigLine

/-- The bytes of a line in a transaction. -/
def size (line : ConfigLine) : Nat :=
  8 + Bytes.sizeOfText line.name + Bytes.sizeOfText line.uri

end ConfigLine

/-- A position of a candy machine. -/
inductive Slot where
  /-- The line there is on the chain. -/
  | written
  | line (line : ConfigLine)
  deriving DecidableEq

namespace Slot

/-- What is known of a position. A line needs a name and a link. -/
def ofItem (index : Nat) : Option CacheItem → Except DeployFault Slot
  | none => .error (.missingItem index)
  | some item =>
    match item.pending? with
    | none => .ok written
    | some (name, link) =>
      if name = "" then .error (.missingName index)
      else if link = "" then .error (.missingLink index)
      else .ok (line ⟨UInt32.ofNat index, name, link⟩)

/-- The slots of `count` positions from `index` on. -/
def ofItems (items : Table CacheItem) : (count index : Nat) → Except DeployFault (List Slot)
  | 0, _ => .ok []
  | count + 1, index => do
    let slot ← ofItem index (items.get? index.repr)
    let slots ← ofItems items count (index + 1)
    return slot :: slots

end Slot

namespace Batch

/-- The most bytes of lines in a transaction. -/
def maxBytes : Nat := 1000

/-- The most lines in a transaction. -/
def maxLines : Nat := 17

/-- Divides slots into batches; `batch` is the one that is open and `size` its bytes. A line that
does not fit closes it, whatever it holds. -/
def divideFrom (batch : Batch) (size : Nat) : List Slot → List Batch
  | [] => if batch.isEmpty then [] else [batch]
  | .written :: slots =>
    if batch.isEmpty then divideFrom [] 0 slots else batch :: divideFrom [] 0 slots
  | .line l :: slots =>
    if maxBytes < size + l.size ∨ batch.length = maxLines then
      batch :: divideFrom [l] l.size slots
    else divideFrom (batch ++ [l]) (size + l.size) slots

/-- Divides slots into batches. -/
def divide (slots : List Slot) : List Batch := divideFrom [] 0 slots

/-- The batches for the first `count` items that are not on the chain. -/
def ofItems (count : UInt64) (items : Table CacheItem) : Except DeployFault (List Batch) := do
  return divide (← Slot.ofItems items count.toNat 0)

/-- The transaction of a batch; an empty one needs none. -/
def transaction? (payer machine : Address) : Batch → Option Transaction
  | [] => none
  | l :: ls => some ⟨[Instruction.addConfigLines machine payer l.index (l :: ls)], []⟩

/-- Writes a batch and gives the positions of its lines. -/
def write (payer machine : Address) (batch : Batch) : Script (List UInt32) :=
  match transaction? payer machine batch with
  | none => .done []
  | some t => do
    let _ ← Script.submit t
    return batch.map ConfigLine.index

end Batch

end CandyDrop
