import CandyDrop.Calendar.Timestamp
import CandyDrop.Config.Basic
import CandyDrop.Config.Fault

/-!
# From the configuration to units of the program

Prices become base units of the payment token, dates become seconds, and the parts of the
configuration become the parts of a candy machine. Nothing here asks the cluster.
-/

namespace CandyDrop.Config

/-- The decimals of the native token. -/
def nativeDecimals : UInt8 := 9

/-- The base units of one native token. -/
def lamportsPerToken : Nat := 1000000000

/-- A price is a finite number that is not negative. -/
def checkPrice (price : Binary64) : Except ConfigFault Unit :=
  if price.isFinite && price.isNonnegative then .ok () else .error (.invalidPrice price)

/-- A price in whole tokens, in base units of a token with that many decimals. -/
def baseUnits (price : Binary64) (decimals : UInt8) : Except ConfigFault UInt64 := do
  checkPrice price
  let unit :=
    if decimals = nativeDecimals then Binary64.ofNat lamportsPerToken
    else (Binary64.ofNat 10).pow decimals.toNat
  return (price.mul unit).roundToUInt64

/-- The seconds of a date at the moment `now`. -/
def parseDate (now : Int) (text : String) : Except ConfigFault Int :=
  match Calendar.timestamp? now text with
  | some t => .ok t
  | none => .error (.invalidDate (Text.trim text))

/-- The date on which sales start. -/
def goLiveSeconds (now : Int) (date : Option String) : Except ConfigFault (Option Int64) :=
  match date with
  | none => .ok none
  | some text => do return some (Int64.ofInt (← parseDate now text))

/-- The number of a JSON value, if it is an unsigned integer or a text of one. -/
def EndSettings.amount? : Json → Option UInt64
  | .number (.integer i) => if 0 ≤ i ∧ i < UInt64.size then some (UInt64.ofNat i.toNat) else none
  | .text s => Text.uint64? (Text.trim s)
  | _ => none

/-- The seconds of a JSON value that stands for a date. -/
def EndSettings.seconds (now : Int) : Json → Except ConfigFault Int
  | .text s => parseDate now s
  | .number (.integer i) =>
    if i < 0x8000000000000000 then .ok i else .error (.invalidDate (Json.number (.integer i)).render)
  | value => .error (.invalidDate value.render)

/-- The end of sales; a date counts if both kinds are chosen. -/
def EndSettings.toMachine (now : Int) (e : EndSettings) :
    Except ConfigFault Machine.EndSettings :=
  if e.kind.date then do
    let seconds ← EndSettings.seconds now e.value
    if 0 ≤ seconds then return .date (UInt64.ofNat seconds.toNat)
    else throw (.invalidDate (Text.ofInt seconds))
  else if e.kind.amount then
    match EndSettings.amount? e.value with
    | some n => .ok (.amount n)
    | none => .error (.invalidAmount e.value)
  else .error .noEndKind

def WhitelistKind.toMachine (k : WhitelistKind) : Except ConfigFault Machine.WhitelistMode :=
  match k.burnEveryTime, k.neverBurn with
  | true, false => .ok .burnEveryTime
  | false, true => .ok .neverBurn
  | _, _ => .error .whitelistMode

/-- An optional value, converted. -/
def convert {α β : Type} (f : α → Except ConfigFault β) :
    Option α → Except ConfigFault (Option β)
  | none => .ok none
  | some x => do return some (← f x)

/-- The whitelist, with its discount in a token with that many decimals. -/
def Whitelist.toMachine (decimals : UInt8) (w : Whitelist) :
    Except ConfigFault Machine.Whitelist := do
  let mode ← w.mode.toMachine
  let discountPrice ← convert (baseUnits · decimals) w.discountPrice
  return ⟨mode, w.mint, w.presale, discountPrice⟩

/-- The hidden settings; the hash has to have 32 bytes. -/
def HiddenSettings.toMachine (h : HiddenSettings) :
    Except ConfigFault Machine.HiddenSettings :=
  let hash := Bytes.ofText h.hash
  if hl : hash.length = 32 then .ok ⟨h.name, h.uri, hash, hl⟩
  else .error (.hashLength hash.length)

end CandyDrop.Config
