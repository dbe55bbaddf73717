import CandyDrop.Borsh
import CandyDrop.Script

/-!
# Accounts of the token program

Mints and token accounts have a fixed layout. An optional part is always there; four bytes in
front of it, zero or one, tell whether it counts. `Mint.check` and `TokenAccount.check` read such an
account from the cluster and accept only one that is initialized.
-/

namespace CandyDrop

/-- A mint: what is known of a token. -/
structure Mint where
  mintAuthority : Option Address
  supply : UInt64
  decimals : UInt8
  isInitialized : Bool
  freezeAuthority : Option Address
  deriving DecidableEq

/-- Whether the tokens of an account can be used. -/
inductive TokenState where
  | uninitialized
  | initialized
  | frozen
  deriving DecidableEq

/-- An account that holds tokens of one mint. -/
structure TokenAccount where
  mint : Address
  owner : Address
  amount : UInt64
  state : TokenState
  deriving DecidableEq

namespace Token

open Borsh (Decoder)

/-- A part that only counts if the number before it is one. -/
def tagged {α : Type} (value : Decoder α) : Decoder (Option α) := do
  let tag ← Decoder.u32
  let x ← value
  match tag with
  | 0 => pure none
  | 1 => pure (some x)
  | _ => failure

/-- The size of a mint. -/
def mintSize : UInt64 := 82

/-- The size of a token account. -/
def accountSize : Nat := 165

end Token

namespace Mint

open Borsh (Decoder)

def decode : Decoder Mint :=
  return {
    mintAuthority := ← Token.tagged Decoder.address
    supply := ← Decoder.u64
    decimals := ← Decoder.u8
    isInitialized := ← Decoder.bool
    freezeAuthority := ← Token.tagged Decoder.address }

/-- The mint in the content of an account, if that has the size of one. -/
def ofBytes? (bs : Bytes) : Option Mint := (decode bs).map (·.1)

/-- What is wrong with an account that should be the mint `address`. -/
def ofAccount (address : Address) : Option Bytes → Except AccountFault Mint
  | none => .error (.tokenNotFound address)
  | some bs =>
    if bs.length ≠ Token.mintSize.toNat then .error (.tokenSize address)
    else match ofBytes? bs with
      | none => .error .tokenContent
      | some m => if m.isInitialized then .ok m else .error (.tokenUninitialized address)

/-- Reads a mint that has to be in order. -/
def check (address : Address) : Script Mint := do
  let content ← Script.account address
  Script.ofExcept .account (ofAccount address content)

end Mint

namespace TokenAccount

open Borsh (Decoder)

def decodeState : Decoder TokenState := do
  match ← Decoder.u8 with
  | 0 => pure .uninitialized
  | 1 => pure .initialized
  | 2 => pure .frozen
  | _ => failure

def decode : Decoder TokenAccount := do
  let mint ← Decoder.address
  let owner ← Decoder.address
  let amount ← Decoder.u64
  let _delegate ← Token.tagged Decoder.address
  let state ← decodeState
  let _native ← Token.tagged Decoder.u64
  let _delegated ← Decoder.u64
  let _closeAuthority ← Token.tagged Decoder.address
  return ⟨mint, owner, amount, state⟩

/-- The token account in the content of an account. -/
def ofBytes? (bs : Bytes) : Option TokenAccount :=
  if bs.length = Token.accountSize then (decode bs).map (·.1) else none

/-- What is wrong with an account that should hold tokens. -/
def ofAccount (address : Address) : Option Bytes → Except AccountFault TokenAccount
  | none => .error (.tokenAccountNotFound address)
  | some bs =>
    match ofBytes? bs with
    | none => .error .tokenContent
    | some a =>
      if a.state = .uninitialized then .error (.tokenAccountUninitialized address) else .ok a

/-- Reads a token account that has to be in order. -/
def check (address : Address) : Script TokenAccount := do
  let content ← Script.account address
  Script.ofExcept .account (ofAccount address content)

end TokenAccount

end CandyDrop
