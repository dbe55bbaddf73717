import CandyDrop.Json.Basic

/-!
# The numbers of JSON

A number is written as a lexeme: sign, whole digits, fraction, exponent. Without fraction and
exponent it is an integer if 64 bits hold it; everything else is a double.

A double is found in three rounded steps: the digits are read into a whole number of 64 bits as
long as they fit, that number is converted, and a power of ten is multiplied or divided. Digits
that no longer fit only count as places. The text of a kept number reads back, but a written
number with many digits may come out one unit beside the nearest double.
-/

namespace CandyDrop.Json

/-- The parts of a written number. -/
structure Lexeme where
  negative : Bool
  whole : List Char
  fraction : Option (List Char)
  /-- Whether the exponent is negative, and its digits. -/
  exponent : Option (Bool × List Char)
  deriving DecidableEq

namespace Lexeme

/-- The value of a decimal digit. -/
def digitValue (c : Char) : Nat := c.toNat - '0'.toNat

/-- Appends digits to a number for as long as 64 bits hold it; also gives the digits left over. -/
def takeDigits (n : Nat) : List Char → Nat × List Char
  | [] => (n, [])
  | c :: cs =>
    let next := 10 * n + digitValue c
    if next < UInt64.size then takeDigits next cs else (n, c :: cs)

/-- The largest power of ten of a double. -/
def maxPower : Nat := 308

/-- The double nearest to `10 ^ n`. -/
def tenTo (n : Nat) : Binary64 := Binary64.ofNat (Binary64.power 10 n)

/-- `x * 10 ^ exponent` for a negative exponent beyond the powers of ten of doubles, by dividing
by the largest of them; `steps` bounds how often, and two leave nothing of a 64-bit number. -/
def divideOften : (steps : Nat) → Binary64 → (exponent : Int) → Binary64
  | 0, x, _ => x
  | steps + 1, x, exponent =>
    if exponent.natAbs ≤ maxPower then x.div (tenTo exponent.natAbs)
    else if x.isZero then x
    else divideOften steps (x.div (tenTo maxPower)) (exponent + maxPower)

/-- `significand * 10 ^ exponent` as a double, unless that is beyond the largest one. -/
def scaled? (significand : Nat) (exponent : Int) : Option Binary64 :=
  let x := Binary64.ofNat significand
  if x.isZero then some x
  else if exponent < 0 then some (divideOften 3 x exponent)
  else if exponent.natAbs ≤ maxPower then
    let y := x.mul (tenTo exponent.natAbs)
    if y.isFinite then some y else none
  else none

/-- The exponent that is written, or zero. -/
def writtenExponent (l : Lexeme) : Int :=
  match l.exponent with
  | none => 0
  | some (negative, ds) =>
    let e : Int := Nat.ofDigitChars 10 ds 0
    if negative then -e else e

/-- The double of a lexeme. -/
def real? (l : Lexeme) : Option Binary64 :=
  let (n, places) := takeDigits 0 l.whole
  let fraction := l.fraction.getD []
  let (n, dropped) := takeDigits n fraction
  let exponent := (places.length : Int) - (fraction.length - dropped.length : Nat)
  (scaled? n (exponent + l.writtenExponent)).map fun x => if l.negative then x.neg else x

/-- The integer of a lexeme. Zero with a minus sign is a double. -/
def integer? (l : Lexeme) : Option Int :=
  if l.fraction.isNone && l.exponent.isNone then
    let n := Nat.ofDigitChars 10 l.whole 0
    if l.negative then if n = 0 ∨ 1 <<< 63 < n then none else some (-(n : Int))
    else if n < UInt64.size then some n else none
  else none

/-- The number of a lexeme, if there is one. -/
def number? (l : Lexeme) : Option Number :=
  match l.integer? with
  | some i => some (.integer i)
  | none => l.real?.map .real

end Lexeme

end CandyDrop.Json
