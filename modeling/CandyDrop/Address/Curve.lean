import CandyDrop.Bytes

/-!
# Points of the curve Ed25519

A public key is the ordinate of a point of `-x² + y² = 1 + d x² y²` over the field of
`2 ^ 255 - 19` elements. A byte string names a point exactly if `(y² - 1) / (d y² + 1)` is a
square, which Euler's criterion decides. Addresses that are derived from seeds must name no point,
so that nobody can hold a key for them.
-/

namespace CandyDrop.Curve

/-- The order of the field. -/
def field : Nat := 1 <<< 255 - 19

/-- The coefficient `-121665 / 121666` of the curve. -/
def coefficient : Nat :=
  37095705934669439343138083508754565189542113879843219016388785533085940283555

/-- `acc * b ^ e` modulo `m`, by squaring. -/
def powMod (b e m acc : Nat) : Nat :=
  if e = 0 then acc
  else powMod (b * b % m) (e / 2) m (if e % 2 = 1 then acc * b % m else acc)
termination_by e
decreasing_by omega

/-- Whether `n` is a square in the field; zero is one. -/
def isSquare (n : Nat) : Bool :=
  n % field == 0 || powMod n ((field - 1) / 2) field 1 == 1

/-- The ordinate that 32 bytes stand for: the low 255 bits, reduced into the field. -/
def ordinate (bs : Bytes) : Nat := Bytes.ofLittleEndian bs % 1 <<< 255 % field

/-- Whether 32 bytes name a point of the curve; the sign of the abscissa does not matter. -/
def isPoint (bs : Bytes) : Bool :=
  let y2 := ordinate bs * ordinate bs % field
  -- `u / v = u v / v²`, and `v` is never zero, so `u v` is a square exactly if `u / v` is one
  isSquare ((y2 + (field - 1)) * (coefficient * y2 + 1) % field)

end CandyDrop.Curve
