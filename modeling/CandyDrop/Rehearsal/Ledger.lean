import CandyDrop.Address.Known
import CandyDrop.Rehearsal.FileTree

/-!
# A ledger to rehearse on

A handler of requests that keeps a cluster and files as values. It notes every call. Rules say
which calls fail, so that what a command does when something goes wrong can be rehearsed as well.
Batches are sent when they are started and answered in the same order; new keys are counted up
from one of the user's choice.
-/

namespace CandyDrop

/-- Which calls fail. -/
structure FailureRules where
  /-- Sends by their number since the rules were set. -/
  sends : List Nat
  /-- Lines by the position of the first one, and the message. -/
  lines : List (Nat × String)
  accounts : List Address
  balance : Bool
  rent : Bool
  /-- The send with which the user stops. -/
  interruptAfter : Option Nat

namespace FailureRules

/-- Nothing fails. -/
def none : FailureRules := ⟨[], [], [], false, false, .none⟩

end FailureRules

/-- A call of the cluster. -/
inductive LedgerCall where
  | account (address : Address)
  | balance (address : Address)
  | rent (size : UInt64)
  | send (transaction : Transaction) (failed : Bool)

/-- A cluster and files as values, and what has happened to them. -/
structure Ledger where
  accounts : List (Address × Bytes)
  balance : UInt64
  rentPerByte : Nat
  rules : FailureRules
  /-- The address of the cluster. -/
  url : String
  /-- Whether the cluster answers at all. -/
  isReachable : Bool
  /-- The number of sends since the rules were set. -/
  sends : Nat
  /-- The number of transactions accepted. -/
  accepted : Nat
  isInterrupted : Bool
  calls : List LedgerCall
  /-- The answers of batches that were not waited for yet. -/
  waiting : List (Except ClusterFault Signature)
  /-- The number of keys made. -/
  keys : Nat
  files : FileTree
  /-- The folder from which paths are followed. -/
  folder : FileTree.Place
  lines : List String
  warnings : List String

namespace Ledger

/-- A ledger with nothing on it. -/
def blank : Ledger where
  accounts := []
  balance := 100000000000
  rentPerByte := 6960
  rules := FailureRules.none
  url := ""
  isReachable := true
  sends := 0
  accepted := 0
  isInterrupted := false
  calls := []
  waiting := []
  keys := 0
  files := FileTree.empty
  folder := []
  lines := []
  warnings := []

/-- The address of the `n`th new key. -/
def newKey (n : Nat) : Address where
  bytes := Digest.hash (Bytes.ofText "new key" ++ Bytes.littleEndian 8 n)
  length_bytes := Digest.length_hash _

/-- What an address holds. -/
def content? (l : Ledger) (a : Address) : Option Bytes := l.accounts.lookup a

/-- Puts content at an address, or nothing. -/
def setAccount (l : Ledger) (a : Address) (content : Option Bytes) : Ledger :=
  { l with accounts := (content.map (a, ·)).toList ++ l.accounts.filter (·.1 ≠ a) }

/-- The rent for an account of a size, at most what 64 bits hold. -/
def rentFor (l : Ledger) (size : UInt64) : UInt64 :=
  UInt64.ofNat (min (size.toNat * l.rentPerByte) (UInt64.size - 1))

/-- Notes a call. -/
def note (l : Ledger) (c : LedgerCall) : Ledger := { l with calls := l.calls ++ [c] }

/-- The first position of the lines that a transaction writes. -/
def startOfLines? (t : Transaction) : Option Nat :=
  t.instructions.findSome? fun i =>
    if i.program = Address.candyMachineProgram
      ∧ i.data.take 8 = discriminator "global" "add_config_lines" then
      some (Bytes.ofLittleEndian ((i.data.drop 8).take 4))
    else none

/-- What comes of a call if the cluster does not answer. -/
def outage (l : Ledger) : Outage :=
  ⟨l.url, "tcp connect error: Network is unreachable (os error 101)"⟩

/-- Why the next send fails, if it does. -/
def refusal? (l : Ledger) (t : Transaction) : Option ClusterFault :=
  if !l.isReachable then some (.unversioned l.outage)
  else match (startOfLines? t).bind fun n => l.rules.lines.lookup n with
    | some message => some (.refused message)
    | none =>
      if l.rules.sends.contains (l.sends + 1) then
        some (.refused ("send " ++ (l.sends + 1).repr ++ " rejected"))
      else none

/-- Sends a transaction. -/
def send (l : Ledger) (t : Transaction) : Except ClusterFault Signature × Ledger :=
  let refusal := l.refusal? t
  let l := { l.note (.send t refusal.isSome) with
    sends := l.sends + 1
    isInterrupted := l.isInterrupted || l.rules.interruptAfter == some (l.sends + 1) }
  match refusal with
  | some fault => (.error fault, l)
  | none => (.ok ⟨l.accepted + 1⟩, { l with accepted := l.accepted + 1 })

/-- The answer of a call that fails by a rule, or by `silence` if the cluster does not answer. -/
def answer {α : Type} (l : Ledger) (silence : Outage → ClusterFault) (fails : Bool)
    (message : String) (value : α) : Except ClusterFault α :=
  if !l.isReachable then .error (silence l.outage)
  else if fails then .error (.refused message)
  else .ok value

/-- Answers a request. -/
def handle : (r : Request) → Ledger → r.Answer × Ledger
  | .connect url, l => ((), { l with url })
  | .account a, l =>
    (l.answer .unversioned (l.rules.accounts.contains a)
      ("account " ++ a.text ++ " unavailable") (l.content? a), l.note (.account a))
  | .balance a, l =>
    (l.answer .unversioned l.rules.balance "balance unavailable" l.balance, l.note (.balance a))
  | .rent size, l =>
    (l.answer .unreachable l.rules.rent "rent unavailable" (l.rentFor size), l.note (.rent size))
  | .submit t, l => l.send t
  | .launch none, l => ((), { l with waiting := l.waiting ++ [.ok ⟨0⟩] })
  | .launch (some t), l =>
    let (a, l) := l.send t
    ((), { l with waiting := l.waiting ++ [a] })
  | .await _, l =>
    match l.waiting with
    | [] => ((0, .error (.refused "No batch is out")), l)
    | a :: rest => ((0, a), { l with waiting := rest })
  | .freshKey, l => (newKey l.keys, { l with keys := l.keys + 1 })
  | .interrupted, l => (l.isInterrupted, l)
  | .read path, l => (l.files.read l.folder path, l)
  | .list path, l => (l.files.list l.folder path, l)
  | .write path text, l =>
    let (files, fault) := l.files.write l.folder path (Bytes.ofText text)
    (fault, { l with files })
  | .append path text, l =>
    let (files, fault) := l.files.append l.folder path (Bytes.ofText text)
    (fault, { l with files })
  | .say line, l => ((), { l with lines := l.lines ++ [line] })
  | .complain _, l => ((), l)
  | .warn text, l => ((), { l with warnings := l.warnings ++ [text] })

/-- Runs a script on a ledger. -/
def run {α : Type} (l : Ledger) (s : Script α) : Except Failure α × Ledger := s.run handle l

end Ledger

end CandyDrop
