import CandyDrop.Failure
import CandyDrop.Transaction

/-!
# Scripts

A command acts on a cluster, on files and on the screen, and none of these is part of this
library. What it does is a `Script`: it ends with a value or a failure, or it makes a request and
goes on in a way that depends on the answer. A handler that answers requests turns a script into a
run (`Script.run`); what a command does whatever the answers are is a statement about all handlers.

Batches of config lines are sent in the background: `launch` starts one, and `await` waits until
one of those still out is answered and tells which.
-/

namespace CandyDrop

/-- What a file holds. -/
inductive Content where
  /-- There is no such file. -/
  | missing
  /-- There is one that cannot be opened. -/
  | closed (reason : String)
  /-- It is a folder. -/
  | folder
  | bytes (bs : Bytes)
  deriving DecidableEq

/-- Why nothing can be read where there is no file. -/
def Content.missingReason : String := "No such file or directory (os error 2)"

/-- Why nothing can be read from a folder. -/
def Content.folderReason : String := "Is a directory (os error 21)"

/-- A name in a folder, and whether a regular file has it. -/
structure FolderEntry where
  name : String
  isFile : Bool
  deriving DecidableEq

/-- What a script can ask for. -/
inductive Request where
  /-- Turns to the cluster at an address. -/
  | connect (url : String)
  /-- The content of an account, if it exists. -/
  | account (address : Address)
  /-- The lamports of an account. -/
  | balance (address : Address)
  /-- The lamports that keep an account of a size alive. -/
  | rent (size : UInt64)
  /-- Sends a transaction and waits for it. -/
  | submit (transaction : Transaction)
  /-- Sends a transaction in the background, if there is one. -/
  | launch (transaction : Option Transaction)
  /-- Waits for one of so many and one more that are out. -/
  | await (others : Nat)
  /-- A new key, by its address. -/
  | freshKey
  /-- Whether the user wants to stop. -/
  | interrupted
  | read (path : String)
  /-- The content of a folder, if it can be read. -/
  | list (path : String)
  /-- Writes a file, and the folders above it that are missing; the answer is what went wrong. -/
  | write (path text : String)
  /-- Writes at the end of a file, which is made if it is missing. -/
  | append (path text : String)
  /-- Shows a line. -/
  | say (line : String)
  /-- Shows a line apart from the output. -/
  | complain (line : String)
  /-- Notes a warning. -/
  | warn (text : String)

/-- What a request is answered with. -/
def Request.Answer : Request → Type
  | connect _ => Unit
  | account _ => Except ClusterFault (Option Bytes)
  | balance _ => Except ClusterFault UInt64
  | rent _ => Except ClusterFault UInt64
  | submit _ => Except ClusterFault Signature
  | launch _ => Unit
  | await others => Fin (others + 1) × Except ClusterFault Signature
  | freshKey => Address
  | interrupted => Bool
  | read _ => Content
  | list _ => Option (List FolderEntry)
  | write _ _ => Option String
  | append _ _ => Option String
  | say _ => Unit
  | complain _ => Unit
  | warn _ => Unit

/-- Something to do, with a value of type `α` in the end. -/
inductive Script (α : Type) where
  | done (value : α)
  | fail (failure : Failure)
  | ask (request : Request) (next : request.Answer → Script α)

namespace Script

variable {α β : Type}

/-- Goes on with another script once a value is there. -/
def bind : Script α → (α → Script β) → Script β
  | done x, f => f x
  | fail e, _ => fail e
  | ask r next, f => ask r fun answer => bind (next answer) f

instance : Monad Script where
  pure := done
  bind := bind

/-- A request as a script of its own. -/
def request (r : Request) : Script r.Answer := ask r done

/-- A value that may be missing for a reason. -/
def ofExcept {ε : Type} (failure : ε → Failure) : Except ε α → Script α
  | .ok x => done x
  | .error e => fail (failure e)

/-- The script whose failures are changed by `f`. -/
def mapFailure (f : Failure → Failure) : Script α → Script α
  | done x => done x
  | fail e => fail (f e)
  | ask r next => ask r fun answer => mapFailure f (next answer)

/-- The script that ends with what the other one ends with, be it a value or a failure. -/
def attempt : Script α → Script (Except Failure α)
  | done x => done (.ok x)
  | fail e => done (.error e)
  | ask r next => ask r fun answer => attempt (next answer)

/-- Runs a script with a handler that keeps a state. -/
def run {σ : Type} (handler : (r : Request) → σ → r.Answer × σ) :
    Script α → σ → Except Failure α × σ
  | done x, s => (.ok x, s)
  | fail e, s => (.error e, s)
  | ask r next, s =>
    let (answer, s) := handler r s
    run handler (next answer) s

/-! ## Requests to the cluster -/

def connect (url : String) : Script Unit := request (.connect url)

/-- The content of an account. -/
def account (a : Address) : Script (Option Bytes) :=
  ask (.account a) (ofExcept Failure.cluster)

def balance (a : Address) : Script UInt64 := ask (.balance a) (ofExcept Failure.cluster)

def rent (size : UInt64) : Script UInt64 := ask (.rent size) (ofExcept Failure.cluster)

/-- Sends a transaction. -/
def submit (t : Transaction) : Script Signature := ask (.submit t) (ofExcept Failure.cluster)

/-! ## Requests to the user and the files -/

def say (line : String) : Script Unit := request (.say line)

def complain (line : String) : Script Unit := request (.complain line)

def warn (text : String) : Script Unit := request (.warn text)

end Script

end CandyDrop
