import CandyDrop.Address.Basic

/-!
# Transactions

A transaction is a list of instructions that the cluster carries out together or not at all. The
payer signs every transaction; `signers` are the further keys that do.
-/

namespace CandyDrop

/-- An account of an instruction and what the instruction may do with it. -/
structure AccountUse where
  address : Address
  isSigner : Bool
  isWritable : Bool
  deriving DecidableEq

/-- A call of a program. -/
structure Instruction where
  program : Address
  accounts : List AccountUse
  data : Bytes
  deriving DecidableEq

structure Transaction where
  instructions : List Instruction
  signers : List Address
  deriving DecidableEq

/-- The name that the cluster gives to a transaction that it accepted. -/
structure Signature where
  number : Nat
  deriving DecidableEq

end CandyDrop
