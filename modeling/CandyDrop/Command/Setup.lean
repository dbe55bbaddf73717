import CandyDrop.Command.Wallet

/-!
# Wallet and connection

What every command needs before it turns to the cluster: the cluster by its name, the address to
reach it, and the wallet that pays.
-/

namespace CandyDrop

/-- A wallet and a connection. -/
structure Setup where
  payer : Address
  rpcUrl : String
  cluster : Cluster
  deriving DecidableEq

namespace Setup

/-- Sets up a wallet and a connection; an address of the user's own replaces that of the
cluster. -/
def load (home env : String) (keypair rpcUrl : Option String) : Script Setup :=
  match Cluster.ofName? env with
  | none => .fail (.config (.unknownCluster env))
  | some cluster => do
    let payer ← Wallet.load home keypair
    let url := rpcUrl.getD cluster.url
    Script.connect url
    return ⟨payer, url, cluster⟩

end Setup

end CandyDrop
