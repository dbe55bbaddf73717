import CandyDrop.Address.Basic

/-!
# Borsh

The binary format of accounts and instructions: numbers are little endian; a text or a list is its
length in four bytes and then its content; an optional value is a byte, zero or one, and then the
value if there is one. A decoder takes what it reads off the front of its input.
-/

namespace CandyDrop.Borsh

def u8 (n : UInt8) : Bytes := [n]

def u16 (n : UInt16) : Bytes := Bytes.littleEndian 2 n.toNat

def u32 (n : Nat) : Bytes := Bytes.littleEndian 4 n

def u64 (n : UInt64) : Bytes := Bytes.littleEndian 8 n.toNat

def i64 (n : Int64) : Bytes := u64 n.toUInt64

def bool (b : Bool) : Bytes := [if b then 1 else 0]

def address (a : Address) : Bytes := a.bytes

def text (s : String) : Bytes := u32 (Bytes.sizeOfText s) ++ Bytes.ofText s

def list {α : Type} (item : α → Bytes) (xs : List α) : Bytes := u32 xs.length ++ xs.flatMap item

def option {α : Type} (value : α → Bytes) : Option α → Bytes
  | none => [0]
  | some x => 1 :: value x

/-- Takes a value off the front of a byte string. -/
abbrev Decoder := StateT Bytes Option

namespace Decoder

/-- The next `n` bytes. -/
def take (n : Nat) : Decoder Bytes := fun bs =>
  if n ≤ bs.length then some (bs.take n, bs.drop n) else none

/-- The number in the next `width` bytes. -/
def number (width : Nat) : Decoder Nat := Bytes.ofLittleEndian <$> take width

def u8 : Decoder UInt8 := UInt8.ofNat <$> number 1

def u16 : Decoder UInt16 := UInt16.ofNat <$> number 2

def u32 : Decoder Nat := number 4

def u64 : Decoder UInt64 := UInt64.ofNat <$> number 8

def i64 : Decoder Int64 := UInt64.toInt64 <$> u64

/-- A byte that is zero or one. -/
def bool : Decoder Bool := do
  match ← u8 with
  | 0 => pure false
  | 1 => pure true
  | _ => failure

def address : Decoder Address := do
  match Address.ofBytes? (← take 32) with
  | some a => pure a
  | none => failure

def text : Decoder String := do
  let n ← u32
  match Bytes.toText? (← take n) with
  | some s => pure s
  | none => failure

/-- `n` values one after another. -/
def replicate {α : Type} (item : Decoder α) : (n : Nat) → Decoder (List α)
  | 0 => pure []
  | n + 1 => do
    let x ← item
    let xs ← replicate item n
    pure (x :: xs)

def list {α : Type} (item : Decoder α) : Decoder (List α) := do
  replicate item (← u32)

def option {α : Type} (value : Decoder α) : Decoder (Option α) := do
  if ← bool then some <$> value else pure none

end Decoder

end CandyDrop.Borsh
