import CandyDrop.Address.Curve
import CandyDrop.Json.Form
import CandyDrop.Json.Reader
import CandyDrop.Json.Record
import CandyDrop.Script
import CandyDrop.Text.Blank

/-!
# Wallets

The key pair of the payer is kept in a file, as a JSON array of 64 bytes: a seed and the public
key. The public key has to be a point of the curve. Only the public key matters here, because
scripts name signers by their addresses.
-/

namespace CandyDrop.Wallet

/-- Where the key pair is kept unless the user says otherwise. -/
def defaultPath : String := "~/.config/solana/id.json"

/-- A path with the home folder in place of a tilde at its start. -/
def expandHome (home path : String) : String :=
  match path.toList with
  | '~' :: rest =>
    if rest = [] ∨ rest.head? = some '/' then home ++ String.ofList rest else path
  | _ => path

/-- Why bytes are no key pair. -/
inductive KeyPairFault where
  /-- They spell no list of bytes. -/
  | malformed (reason : String)
  /-- The list does not have 64 bytes. -/
  | wrongLength
  /-- The public key is no point of the curve. -/
  | noPoint
  deriving DecidableEq

def KeyPairFault.message : KeyPairFault → String
  | malformed reason => reason
  | wrongLength => "signature error: Keypair must be 64 bytes in length"
  | noPoint => "signature error: Cannot decompress Edwards point"

/-- What a key pair file looks like. -/
def form : Json.Form := Json.Form.list (Json.Form.natural 8)

/-- The public key in the bytes of a key pair file. It is what follows the 32 bytes of the seed. -/
def ofBytes (bs : Bytes) : Except KeyPairFault Address :=
  match (Json.ofBytes? bs).bind (Json.toList? Json.toUInt8?) with
  | none => .error (.malformed (form.reason bs))
  | some pair =>
    match Address.ofBytes? (pair.drop 32) with
    | none => .error .wrongLength
    | some a => if Curve.isPoint a.bytes then .ok a else .error .noPoint

/-- The public key in the content of a key pair file. -/
def ofContent (path : String) : Content → Except WalletFault Address
  | .missing => .error (.unreadable path Content.missingReason)
  | .closed reason => .error (.unreadable path reason)
  | .folder => .error (.unreadable path Content.folderReason)
  | .bytes bs =>
    match ofBytes bs with
    | .ok a => .ok a
    | .error fault => .error (.unreadable path fault.message)

/-- The path of the key pair file; a blank one is an error. -/
def path (home : String) (keypair : Option String) : Except WalletFault String :=
  let chosen := keypair.getD defaultPath
  if Text.blank chosen then .error .missingKeypair else .ok (expandHome home chosen)

/-- Reads the wallet of the payer. -/
def load (home : String) (keypair : Option String) : Script Address := do
  let path ← Script.ofExcept .wallet (path home keypair)
  let content ← Script.request (.read path)
  Script.ofExcept .wallet (ofContent path content)

end CandyDrop.Wallet
