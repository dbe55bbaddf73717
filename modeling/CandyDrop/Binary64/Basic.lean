/-!
# Double precision numbers

The 64-bit binary interchange format of IEEE 754, as bits. A finite number is
`± significand * 2 ^ scale` exactly, and every operation here computes that value in integers and
rounds once, to the nearest number and to the even one in a tie.

* `roundRatio`: the number nearest to a quotient of naturals;
* `add`, `mul`, `div`, `ofNat`: the operations, through `roundRatio`;
* `roundToUInt64`: the nearest integer, a half going away from zero, kept within 64 bits.
-/

namespace CandyDrop

/-- A double, by its bits. -/
structure Binary64 where
  bits : UInt64
  deriving DecidableEq

namespace Binary64

/-- Whether the sign bit is set. -/
def negative (x : Binary64) : Bool := 1 <<< 63 ≤ x.bits.toNat

/-- The eleven bits of the exponent. -/
def exponentField (x : Binary64) : Nat := x.bits.toNat / 1 <<< 52 % 1 <<< 11

/-- The 52 bits of the fraction. -/
def fractionField (x : Binary64) : Nat := x.bits.toNat % 1 <<< 52

/-- Neither infinite nor NaN. -/
def isFinite (x : Binary64) : Bool := x.exponentField != 2047

/-- Not a number. -/
def isNaN (x : Binary64) : Bool := x.exponentField == 2047 && x.fractionField != 0

/-- The magnitude of a finite number in units of `2 ^ scale`. -/
def significand (x : Binary64) : Nat :=
  if x.exponentField = 0 then x.fractionField else 1 <<< 52 + x.fractionField

/-- The power of two that the significand counts. -/
def scale (x : Binary64) : Int :=
  if x.exponentField = 0 then -1074 else (x.exponentField : Int) - 1075

/-- Whether a finite number is zero, of either sign. -/
def isZero (x : Binary64) : Bool := x.isFinite && x.significand == 0

/-- Not below zero; the negative zero is not. -/
def isNonnegative (x : Binary64) : Bool := !x.isNaN && (!x.negative || x.isZero)

/-- The number with the given sign and bits below it. -/
def withSign (negative : Bool) (magnitude : Nat) : Binary64 :=
  ⟨UInt64.ofNat ((if negative then 1 <<< 63 else 0) + magnitude)⟩

def zero (negative : Bool) : Binary64 := withSign negative 0

def infinity (negative : Bool) : Binary64 := withSign negative (2047 <<< 52)

def nan : Binary64 := withSign false (2047 <<< 52 + 1 <<< 51)

/-- `base ^ k` for a natural `k`, and one for a negative `k`. -/
def power (base : Nat) (k : Int) : Nat := base.pow k.toNat

/-- The quotient of two naturals, rounded to the nearest natural and to the even one in a tie. -/
def divNearestEven (num den : Nat) : Nat :=
  let q := num / den
  let r := num % den
  if 2 * r < den then q else if den < 2 * r then q + 1 else q + q % 2

/-- The power of two in which the double nearest to `num / den` is counted: the one that leaves 53
bits, but no less than the smallest there is. -/
def scaleFor (num den : Nat) : Int :=
  let e := (num.log2 : Int) - (den.log2 : Int) - 52
  let e := if num * power 2 (-e) < (den * power 2 e) <<< 52 then e - 1 else e
  max e (-1074)

/-- The double nearest to `± num / den`; beyond the largest one it is infinite. -/
def roundRatio (negative : Bool) (num den : Nat) : Binary64 :=
  if num = 0 then zero negative
  else
    let e := scaleFor num den
    let m := divNearestEven (num * power 2 (-e)) (den * power 2 e)
    -- the leading bit of a normal significand counts one in the exponent field, and one that
    -- rounds up to `2 ^ 53` carries into it
    let magnitude := (e + 1074).toNat <<< 52 + m
    if magnitude < 2047 <<< 52 then withSign negative magnitude else infinity negative

/-- The double nearest to a natural. -/
def ofNat (n : Nat) : Binary64 := roundRatio false n 1

/-- The double nearest to an integer. -/
def ofInt (i : Int) : Binary64 := roundRatio (decide (i < 0)) i.natAbs 1

/-- The number with the other sign. -/
def neg (x : Binary64) : Binary64 := ⟨x.bits ^^^ 0x8000000000000000⟩

/-- The value of a finite number in units of `2 ^ q`, for `q` not above its scale. -/
def inUnits (x : Binary64) (q : Int) : Int :=
  let m : Int := (x.significand * power 2 (x.scale - q) : Nat)
  if x.negative then -m else m

/-- The sum, rounded once. -/
def add (x y : Binary64) : Binary64 :=
  if x.isNaN || y.isNaN then nan
  else if !x.isFinite then (if y.isFinite || x.negative == y.negative then x else nan)
  else if !y.isFinite then y
  else
    let q := min x.scale y.scale
    let s := x.inUnits q + y.inUnits q
    if s = 0 then zero (x.negative && y.negative)
    else roundRatio (decide (s < 0)) (s.natAbs * power 2 q) (power 2 (-q))

/-- The difference, rounded once. -/
def sub (x y : Binary64) : Binary64 := x.add y.neg

/-- The product, rounded once. -/
def mul (x y : Binary64) : Binary64 :=
  let negative := x.negative != y.negative
  if x.isNaN || y.isNaN then nan
  else if !x.isFinite || !y.isFinite then
    if x.isZero || y.isZero then nan else infinity negative
  else
    let q := x.scale + y.scale
    roundRatio negative (x.significand * y.significand * power 2 q) (power 2 (-q))

/-- The quotient, rounded once. -/
def div (x y : Binary64) : Binary64 :=
  let negative := x.negative != y.negative
  if x.isNaN || y.isNaN || (!x.isFinite && !y.isFinite) || (x.isZero && y.isZero) then nan
  else if !x.isFinite || y.isZero then infinity negative
  else if !y.isFinite then zero negative
  else
    let q := x.scale - y.scale
    roundRatio negative (x.significand * power 2 q) (y.significand * power 2 (-q))

/-- `x ^ n` by squaring, each product rounded: the running product takes the current square at
each set bit of `n`, lowest first. -/
def powerFrom (product square : Binary64) (n : Nat) : Binary64 :=
  let product := if n % 2 = 1 then product.mul square else product
  if n / 2 = 0 then product else powerFrom product (square.mul square) (n / 2)
termination_by n
decreasing_by omega

/-- `x ^ n` by squaring. -/
def pow (x : Binary64) (n : Nat) : Binary64 := powerFrom (ofNat 1) x n

/-- The nearest natural to the magnitude of a finite number, a half going up. -/
def nearestNat (x : Binary64) : Nat :=
  let num := x.significand * power 2 x.scale
  let den := power 2 (-x.scale)
  (2 * num + den) / (2 * den)

/-- The nearest integer, a half going away from zero, or else the end of the 64-bit range that is
nearest to it. NaN gives zero. -/
def roundToUInt64 (x : Binary64) : UInt64 :=
  if x.isNaN || x.negative then 0
  else if !x.isFinite then UInt64.ofNat (UInt64.size - 1)
  else UInt64.ofNat (min x.nearestNat (UInt64.size - 1))

end Binary64

end CandyDrop
