import CandyDrop.Checks.Fault
import CandyDrop.Config.Basic

/-!
# Limits of a collection

Names, symbols, links, fees and creators have limits, because accounts keep a fixed room for them.
`CollectionDetails.check` is the one way to get the values that all items of a candy machine
share; it fails with the first fault in the order of its steps.
-/

namespace CandyDrop

namespace Checks

def maxNameLength : Nat := 32

def maxSymbolLength : Nat := 10

def maxUrlLength : Nat := 200

def maxSellerFee : UInt16 := 10000

/-- The program keeps room for five creators and is one of them itself. -/
def maxCreators : Nat := 4

def name (s : String) : Except CheckFault Unit :=
  if Bytes.sizeOfText s ≤ maxNameLength then .ok () else .error .nameTooLong

def symbol (s : String) : Except CheckFault Unit :=
  if Bytes.sizeOfText s ≤ maxSymbolLength then .ok () else .error .symbolTooLong

def url (s : String) : Except CheckFault Unit :=
  if Bytes.sizeOfText s ≤ maxUrlLength then .ok () else .error .urlTooLong

def sellerFee (basisPoints : UInt16) : Except CheckFault Unit :=
  if basisPoints ≤ maxSellerFee then .ok () else .error (.sellerFee basisPoints)

/-- The shares of the creators are 100 together. -/
def shares (creators : List Config.Creator) : Except CheckFault Unit :=
  if creators.foldl (fun n c => n + c.share.toNat) 0 = 100 then .ok () else .error .creatorShares

/-- The address of a creator. -/
def address (creator : Config.Creator) : Except CheckFault Address :=
  match creator.address with
  | none => .error .missingCreatorAddress
  | some text =>
    match Address.ofText? text with
    | some a => .ok a
    | none => .error (.invalidCreatorAddress text)

/-- The addresses of the creators in order. -/
def addresses : List Config.Creator → Except CheckFault (List Address)
  | [] => .ok []
  | c :: cs => do
    let a ← address c
    let as ← addresses cs
    return a :: as

/-- The creators as the program takes them, none of them verified yet. -/
def creators (cs : List Config.Creator) : Except CheckFault (List Machine.Creator) := do
  if cs.isEmpty then throw .noCreators
  if maxCreators < cs.length then throw (.tooManyCreators cs.length maxCreators)
  let as ← addresses cs
  shares cs
  return (as.zip cs).map fun (a, c) => ⟨a, false, c.share⟩

end Checks

/-- What all items of a candy machine share. -/
structure CollectionDetails where
  symbol : String
  sellerFeeBasisPoints : UInt16
  creators : List Machine.Creator
  deriving DecidableEq

namespace CollectionDetails

/-- The details of a collection, if they are within the limits. -/
def check (symbol : String) (sellerFeeBasisPoints : UInt16) (creators : List Config.Creator) :
    Except CheckFault CollectionDetails := do
  Checks.symbol symbol
  Checks.sellerFee sellerFeeBasisPoints
  let creators ← Checks.creators creators
  return ⟨symbol, sellerFeeBasisPoints, creators⟩

end CollectionDetails

end CandyDrop
