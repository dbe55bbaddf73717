import CandyDrop.Address.Derived
import CandyDrop.Borsh
import CandyDrop.Transaction

/-!
# Instructions for tokens and accounts

The calls of the system program and of the token programs that a drop makes.
-/

namespace CandyDrop

namespace AccountUse

/-- An account that is only read. -/
def reads (a : Address) : AccountUse := ⟨a, false, false⟩

def writes (a : Address) : AccountUse := ⟨a, false, true⟩

def signs (a : Address) : AccountUse := ⟨a, true, false⟩

def signsAndWrites (a : Address) : AccountUse := ⟨a, true, true⟩

end AccountUse

namespace Instruction

open AccountUse

/-- Makes an account of some size with some lamports for a program. -/
def createAccount (payer account : Address) (lamports space : UInt64) (owner : Address) :
    Instruction where
  program := Address.systemProgram
  accounts := [signsAndWrites payer, signsAndWrites account]
  data := Borsh.u32 0 ++ Borsh.u64 lamports ++ Borsh.u64 space ++ Borsh.address owner

/-- Turns an account into a mint without decimals. -/
def initializeMint (mint authority : Address) : Instruction where
  program := Address.tokenProgram
  accounts := [writes mint, reads Address.rentSysvar]
  data := [0, 0] ++ Borsh.address authority ++ Borsh.option Borsh.address (some authority)

/-- Makes the account in which a wallet holds a token by default. -/
def createTokenAccount (payer wallet mint : Address) : Instruction where
  program := Address.associatedTokenProgram
  accounts :=
    [signsAndWrites payer, writes (Address.associatedToken wallet mint), reads wallet, reads mint,
     reads Address.systemProgram, reads Address.tokenProgram]
  data := [0]

/-- Makes new tokens. -/
def mintTo (mint account authority : Address) (amount : UInt64) : Instruction where
  program := Address.tokenProgram
  accounts := [writes mint, writes account, signs authority]
  data := 7 :: Borsh.u64 amount

/-- Lets another key spend tokens of an account. -/
def approve (account delegate owner : Address) (amount : UInt64) : Instruction where
  program := Address.tokenProgram
  accounts := [writes account, reads delegate, signs owner]
  data := 4 :: Borsh.u64 amount

/-- Takes back what was approved. -/
def revoke (account owner : Address) : Instruction where
  program := Address.tokenProgram
  accounts := [writes account, signs owner]
  data := [5]

end Instruction

end CandyDrop
