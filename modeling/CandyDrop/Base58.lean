import CandyDrop.Bytes
import CandyDrop.Numeral

/-!
# Base 58 text

Each zero byte at the start of a byte string is written `1`; the rest is written as a number in
base 58, most significant digit first, with the digits and letters that cannot be mistaken for
one another.
-/

namespace CandyDrop.Base58

/-- The 58 digits in order of value. -/
def alphabet : List Char :=
  "123456789ABCDEFGHJKLMNPQRSTUVWXYZabcdefghijkmnopqrstuvwxyz".toList

/-- The digit of a value below 58. -/
def digit (n : Nat) : Char := alphabet.getD n '1'

/-- The value of a digit. -/
def value? (c : Char) : Option Nat := alphabet.findIdx? (· == c)

/-- The text of a byte string. -/
def encode (bs : Bytes) : String :=
  let zeros := bs.takeWhile (· == 0)
  let rest := bs.dropWhile (· == 0)
  let n := Numeral.ofDigits 256 (rest.map UInt8.toNat)
  String.ofList (zeros.map (fun _ => '1') ++ (Numeral.toDigits 56 n).map digit)

/-- The byte string of a text, if every character is a digit of the alphabet. -/
def decode? (s : String) : Option Bytes := do
  let zeros := s.toList.takeWhile (· == '1')
  let rest := s.toList.dropWhile (· == '1')
  let ds ← rest.mapM value?
  let n := Numeral.ofDigits 58 ds
  pure (zeros.map (fun _ => 0) ++ (Numeral.toDigits 254 n).map UInt8.ofNat)

end CandyDrop.Base58
