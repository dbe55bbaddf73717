import CandyDrop.Binary64.Basic

/-!
# Shortest decimals

The fewest decimal digits that read back as a given double. The reals that round to a double form
an interval around it, ends included if the significand is even. For each decimal grid, coarsest
first, the two grid points next to the double are tested against that interval; the first grid with
a hit wins, and of two hits the nearer.
-/

namespace CandyDrop

/-- The decimal number `digits * 10 ^ exponent`. -/
structure Decimal where
  digits : Nat
  exponent : Int
  deriving DecidableEq

namespace Decimal

/-- The same number without zeros at the end of its digits. -/
def normalize (fuel : Nat) (d : Decimal) : Decimal :=
  match fuel with
  | 0 => d
  | fuel + 1 =>
    if d.digits ≠ 0 ∧ d.digits % 10 = 0 then normalize fuel ⟨d.digits / 10, d.exponent + 1⟩ else d

end Decimal

namespace Binary64

/-- A positive double and the ends of the interval that rounds to it, over one denominator. -/
structure Interval where
  value : Nat
  low : Nat
  high : Nat
  denominator : Nat
  closed : Bool

/-- The interval of a finite double other than zero. Below a power of two the doubles are twice as
dense as above it. -/
def interval (x : Binary64) : Interval :=
  let m := x.significand
  let lowGap := if x.fractionField = 0 ∧ 1 < x.exponentField then 1 else 2
  let unit := power 2 (x.scale - 2)
  { value := 4 * m * unit
    low := (4 * m - lowGap) * unit
    high := (4 * m + 2) * unit
    denominator := power 2 (2 - x.scale)
    closed := m % 2 == 0 }

/-- The number of decimal digits of a natural. -/
def decimalLength (n : Nat) : Nat := (Nat.toDigits 10 n).length

/-- The exponent of the first decimal digit of `num / den`. -/
def leadingExponent (num den : Nat) : Int :=
  if den ≤ num then (decimalLength (num / den) : Int) - 1
  else
    let j := decimalLength (den / num) - 1
    if den ≤ num * power 10 j then -(j : Int) else -(j : Int) - 1

/-- The point of the grid of `10 ^ k` that lies in the interval and is nearest to its double, if
one of the two next to the double lies in it. A tie goes to the even point. -/
def Interval.onGrid? (i : Interval) (k : Int) : Option Nat :=
  let p := power 10 k * i.denominator
  let q := power 10 (-k)
  let inside (g : Nat) : Bool :=
    if i.closed then i.low * q ≤ g * p && g * p ≤ i.high * q
    else i.low * q < g * p && g * p < i.high * q
  let below := i.value * q / p
  let above := if i.value * q % p = 0 then below else below + 1
  let belowGap := i.value * q - below * p
  let aboveGap := above * p - i.value * q
  match inside below, inside above with
  | true, true =>
    if belowGap < aboveGap then some below
    else if aboveGap < belowGap then some above
    else some (if below % 2 = 0 then below else above)
  | true, false => some below
  | false, true => some above
  | false, false => none

/-- The first grid with a hit, from `10 ^ k` down. The grid of seventeen digits always has one. -/
def Interval.search (i : Interval) : (grids : Nat) → (k : Int) → Decimal
  | 0, k => ⟨i.value * power 10 (-k) / (power 10 k * i.denominator), k⟩
  | grids + 1, k =>
    match i.onGrid? k with
    | some g => ⟨g, k⟩
    | none => i.search grids (k - 1)

/-- The shortest decimal of the magnitude of a finite double. -/
def shortest (x : Binary64) : Decimal :=
  if x.significand = 0 then ⟨0, 0⟩
  else
    let i := x.interval
    (i.search 17 (leadingExponent i.value i.denominator)).normalize 20

end Binary64

end CandyDrop
