/-!
# Integers as decimal text

A number is read from an optional sign and one or more ASCII digits, and from nothing else. The
reader of a width refuses what the width cannot hold. A minus sign is only read by the signed
reader, also in front of zero. What `Nat.repr` writes is read back (`digits?_repr`).
-/

namespace CandyDrop.Text

/-- The number spelled by ASCII digits alone, at least one of them. -/
def digits? (cs : List Char) : Option Nat :=
  if !cs.isEmpty && cs.all Char.isDigit then some (Nat.ofDigitChars 10 cs 0) else none

theorem digits?_repr (n : Nat) : digits? n.repr.toList = some n := by
  have h : (Nat.toDigits 10 n).all Char.isDigit = true :=
    List.all_eq_true.2 fun c hc => Nat.isDigit_of_mem_toDigits (by omega) (by omega) hc
  simp [digits?, Nat.toList_repr, Nat.toDigits_ne_nil, h]

/-- An unsigned number, with or without a plus sign. -/
def natural? : List Char → Option Nat
  | '+' :: cs => digits? cs
  | cs => digits? cs

/-- A number with or without a sign. -/
def integer? : List Char → Option Int
  | '-' :: cs => (digits? cs).map fun n => -(n : Int)
  | cs => (natural? cs).map fun n => (n : Int)

/-- An unsigned number of 64 bits. -/
def uint64? (s : String) : Option UInt64 :=
  match natural? s.toList with
  | some n => if n < UInt64.size then some (UInt64.ofNat n) else none
  | none => none

/-- A signed number of 64 bits. -/
def int64? (s : String) : Option Int64 :=
  match integer? s.toList with
  | some i => if -0x8000000000000000 ≤ i ∧ i < 0x8000000000000000 then some (Int64.ofInt i) else none
  | none => none

/-- The decimal text of an integer, with a minus sign for the negative ones. -/
def ofInt (i : Int) : String :=
  if i < 0 then "-" ++ i.natAbs.repr else i.natAbs.repr

end CandyDrop.Text
