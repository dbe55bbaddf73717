import CandyDrop.Deploy.Command
import CandyDrop.Mint.Size

/-!
# Minting

Mints items of a candy machine, one transaction each. The settings of the machine decide what the
transaction needs beyond the item itself: `Extras` collects accounts, approvals and keys, and the
revocations that go into a second transaction once the first was accepted.
-/

namespace CandyDrop

namespace Machine

/-- Reads a candy machine. -/
def get (address : Address) : Script Machine := do
  match ← Script.account address with
  | none => .fail (.account (.machineNotFound address))
  | some bs => Script.ofExcept (fun e => .account (.layout e)) (ofAccount bs)

/-- Reads the collection of a machine, by the address of the account that names it. An empty
account names none. -/
def Collection.get? (address : Address) : Script (Option Collection) := do
  match ← Script.account address with
  | none => return none
  | some [] => return none
  | some bs =>
    let c ← Script.ofExcept (fun e => .account (.layout e)) (ofAccount bs)
    return some c

end Machine

namespace Minting

/-- What the settings of a machine add to a mint transaction. -/
structure Extras where
  accounts : List AccountUse
  approvals : List Instruction
  revocations : List Instruction
  signers : List Address

namespace Extras

def none : Extras := ⟨[], [], [], []⟩

def append (a b : Extras) : Extras :=
  ⟨a.accounts ++ b.accounts, a.approvals ++ b.approvals, a.revocations ++ b.revocations,
    a.signers ++ b.signers⟩

/-- What a gatekeeper asks for: the gateway token, and the means to use it up. -/
def ofGatekeeper (payer : Address) : Option Machine.Gatekeeper → Extras
  | .none => none
  | some g =>
    { none with
      accounts := .writes (Address.gatewayToken payer g.network) ::
        if g.expireOnUse then
          [.reads Address.gatewayProgram, .reads (Address.gatewayExpiry g.network)]
        else [] }

/-- The delegation of `amount` tokens of an account for the time of one mint. -/
def delegation (payer account delegate : Address) (amount : UInt64) : Extras where
  accounts := []
  approvals := [Instruction.approve account delegate payer amount]
  revocations := [Instruction.revoke account payer]
  signers := []

/-- What a whitelist asks for: the account with the whitelist token and, if that is burnt, a key
that may burn it. Without such an account there is nothing to burn. -/
def ofWhitelist (payer : Address) : Option Machine.Whitelist → Script Extras
  | .none => .done none
  | some w =>
    let account := Address.associatedToken payer w.mint
    match w.mode with
    | .neverBurn => .done { none with accounts := [.writes account] }
    | .burnEveryTime => do
      let burner ← Script.request .freshKey
      let content ← Script.account account
      let base : Extras :=
        { none with
          accounts := [.writes account, .writes w.mint, .signs burner]
          signers := [burner] }
      return if content.isSome then base.append (delegation payer account burner 1) else base

/-- What payment in a token asks for: the account that pays and a key that may take the price. -/
def ofToken (payer : Address) (price : UInt64) : Option Address → Script Extras
  | .none => .done none
  | some token => do
    let account := Address.associatedToken payer token
    let payerKey ← Script.request .freshKey
    let base : Extras :=
      { none with accounts := [.writes account, .signs payerKey], signers := [payerKey] }
    return base.append (delegation payer account payerKey price)

/-- What the settings of a machine ask for. -/
def ofMachine (payer : Address) (m : Machine) : Script Extras := do
  let gate := ofGatekeeper payer m.data.gatekeeper
  let whitelist ← ofWhitelist payer m.data.whitelist
  let token ← ofToken payer m.data.price m.tokenMint
  return (gate.append whitelist).append token

end Extras

/-- The instructions that make a new mint with one token for the payer. -/
def newToken (payer mint : Address) (rent : UInt64) : List Instruction :=
  [Instruction.createAccount payer mint rent Token.mintSize Address.tokenProgram,
   Instruction.initializeMint mint payer,
   Instruction.createTokenAccount payer payer mint,
   Instruction.mintTo mint (Address.associatedToken payer mint) payer 1]

/-- The instruction that puts the item into the collection, if the machine has one and keeps its
authority. -/
def joining (payer machine mint : Address) (m : Machine) :
    Option Machine.Collection → List Instruction
  | some c =>
    if m.data.retainAuthority then
      [Instruction.joinCollection machine payer mint c.mint m.authority]
    else []
  | none => []

/-- The transaction that mints an item. -/
def transaction (payer machine mint : Address) (m : Machine) (rent : UInt64) (extras : Extras)
    (collection : Option Machine.Collection) : Transaction where
  instructions :=
    newToken payer mint rent ++ extras.approvals
      ++ Instruction.mintItem machine payer m.wallet mint extras.accounts
        :: joining payer machine mint m collection
  signers := mint :: extras.signers

/-- Takes back what was approved. -/
def cleanUp (extras : Extras) : Script Unit :=
  if extras.revocations.isEmpty then .done ()
  else do
    let _ ← Script.submit ⟨extras.revocations, []⟩
    return ()

/-- Mints an item of a machine that was just read. -/
def mintItem (payer machine : Address) (m : Machine) : Script Signature := do
  let mint ← Script.request .freshKey
  let rent ← Script.rent Token.mintSize
  let extras ← Extras.ofMachine payer m
  let collection ← Machine.Collection.get? (Address.machineCollection machine).1
  let signature ← Script.submit (transaction payer machine mint m rent extras collection)
  cleanUp extras
  return signature

/-- Mints an item, if there is one left. -/
def mintOne (payer machine : Address) : Script Signature := do
  let m ← Machine.get machine
  if m.remaining = 0 then .fail (.mint (.soldOut machine)) else mintItem payer machine m

/-- Mints items in rounds, of which `left` are left to do, and stops at the first that fails. -/
def mintRounds (payer machine : Address) (rounds : UInt64) :
    (left : Nat) → Script (List Signature)
  | 0 => .done []
  | left + 1 => do
    let round := rounds - UInt64.ofNat left
    let signature ← (mintOne payer machine).mapFailure (.mintRound round rounds)
    let rest ← mintRounds payer machine rounds left
    return signature :: rest

/-- Mints a number of items one after another. -/
def mintMany (payer machine : Address) (number : UInt64) : Script (List Signature) :=
  mintRounds payer machine number number.toNat

end Minting

end CandyDrop
