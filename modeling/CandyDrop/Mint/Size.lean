import CandyDrop.Machine.Basic

/-!
# The size of a mint transaction

An estimate in bytes: a fixed part, and something for each setting of the machine.
-/

namespace CandyDrop.Machine

def mintBaseSize : Nat := 892

def mintCollectionSize : Nat := 182

def mintTokenSize : Nat := 177

def mintWhitelistSize : Nat := 33

def mintWhitelistBurnSize : Nat := 145

def mintGatekeeperSize : Nat := 33

def mintGatekeeperExpireSize : Nat := 66

/-- The bytes that the whitelist adds. -/
def whitelistMintSize : Option Whitelist → Nat
  | none => 0
  | some w => mintWhitelistSize + if w.mode = .burnEveryTime then mintWhitelistBurnSize else 0

/-- The bytes that the gatekeeper adds. -/
def gatekeeperMintSize : Option Gatekeeper → Nat
  | none => 0
  | some g => mintGatekeeperSize + if g.expireOnUse then mintGatekeeperExpireSize else 0

/-- The estimated size of a mint transaction. -/
def mintSize (m : Machine) (hasCollection : Bool) : Nat :=
  mintBaseSize
    + (if hasCollection && m.data.retainAuthority then mintCollectionSize else 0)
    + (if m.tokenMint.isSome then mintTokenSize else 0)
    + whitelistMintSize m.data.whitelist
    + gatekeeperMintSize m.data.gatekeeper

end CandyDrop.Machine
