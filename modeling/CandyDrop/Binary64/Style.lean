import CandyDrop.Binary64.Shortest

/-!
# Decimal text of doubles

A double is written with its shortest digits. What differs from one text to the other is a
`DecimalStyle`: where positional digits end and an exponent begins, and how whole numbers and
exponents look.
-/

namespace CandyDrop

/-- How the digits of a double are laid out. -/
structure DecimalStyle where
  /-- The exponents of the first digit that are written positionally; `none` is all of them. -/
  positional : Option (Int × Int)
  /-- Whether a positional whole number ends in `.0`. -/
  keepsPoint : Bool
  /-- Whether a positive exponent has a plus sign. -/
  signsExponent : Bool
  /-- The least number of digits of an exponent. -/
  exponentWidth : Nat
  deriving DecidableEq

namespace Binary64

/-- `n` zeros. -/
def zeros (n : Nat) : List Char := List.replicate n '0'

/-- The digits `ds`, of which the first counts `10 ^ lead`, without an exponent. -/
def positionalText (style : DecimalStyle) (ds : List Char) (lead : Int) : List Char :=
  if lead < 0 then '0' :: '.' :: zeros (-lead - 1).toNat ++ ds
  else
    let whole := lead.toNat + 1
    if whole < ds.length then ds.take whole ++ '.' :: ds.drop whole
    else
      ds ++ zeros (whole - ds.length) ++ (if style.keepsPoint then ['.', '0'] else [])

/-- The digits `ds`, of which the first counts `10 ^ lead`, with an exponent. -/
def exponentText (style : DecimalStyle) (ds : List Char) (lead : Int) : List Char :=
  let mantissa := match ds with
    | [d] => [d]
    | d :: rest => d :: '.' :: rest
    | [] => []
  let sign := if lead < 0 then ['-'] else if style.signsExponent then ['+'] else []
  let e := Nat.toDigits 10 lead.natAbs
  mantissa ++ 'e' :: sign ++ zeros (style.exponentWidth - e.length) ++ e

/-- The text of a double in a style. -/
def render (style : DecimalStyle) (x : Binary64) : String :=
  let sign := if x.negative then ['-'] else []
  if x.isNaN then "NaN"
  else if !x.isFinite then String.ofList (sign ++ ['i', 'n', 'f'])
  else
    let d := x.shortest
    let ds := Nat.toDigits 10 d.digits
    let lead := d.exponent + (ds.length : Int) - 1
    let isPositional := match style.positional with
      | none => true
      | some (low, high) => decide (low ≤ lead ∧ lead ≤ high)
    let body := if isPositional || x.significand == 0 then positionalText style ds lead
      else exponentText style ds lead
    String.ofList (sign ++ body)

/-- The text of a finite number with a fixed number of decimal places, rounded from the exact value
to the nearest such decimal and to the even one in a tie. -/
def renderFixed (places : Nat) (x : Binary64) : String :=
  let scaled := divNearestEven (x.significand * power 10 places * power 2 x.scale) (power 2 (-x.scale))
  let ds := Nat.toDigits 10 scaled
  let ds := zeros (places + 1 - ds.length) ++ ds
  let whole := ds.length - places
  let sign := if x.negative then ['-'] else []
  String.ofList (sign ++ ds.take whole ++ (if places = 0 then [] else '.' :: ds.drop whole))

end Binary64

end CandyDrop
