/-!
# Numerals in any base

A number as the list of its digits, most significant first, without leading zeros; zero has no
digit. Reading a numeral back gives the number (`ofDigits_toDigits`).
-/

namespace CandyDrop.Numeral

/-- The number that `ds` spells in base `b`. -/
def ofDigits (b : Nat) (ds : List Nat) : Nat := ds.foldl (fun n d => b * n + d) 0

/-- The digits of `n` in base `b + 2`, put in front of `rest`. -/
def pushDigits (b : Nat) (n : Nat) (rest : List Nat) : List Nat :=
  if n = 0 then rest else pushDigits b (n / (b + 2)) (n % (b + 2) :: rest)
termination_by n
decreasing_by exact Nat.div_lt_self (by omega) (by omega)

/-- The digits of `n` in base `b + 2`. -/
def toDigits (b : Nat) (n : Nat) : List Nat := pushDigits b n []

theorem foldl_pushDigits (b n : Nat) (rest : List Nat) :
    (pushDigits b n rest).foldl (fun m d => (b + 2) * m + d) 0
      = rest.foldl (fun m d => (b + 2) * m + d) n := by
  induction n using Nat.strongRecOn generalizing rest with
  | ind n ih =>
    rw [pushDigits]
    split
    · next h => rw [h]
    · next h =>
      rw [ih (n / (b + 2)) (Nat.div_lt_self (by omega) (by omega)), List.foldl_cons,
        Nat.div_add_mod]

theorem ofDigits_toDigits (b n : Nat) : ofDigits (b + 2) (toDigits b n) = n := by
  rw [ofDigits, toDigits, foldl_pushDigits, List.foldl_nil]

end CandyDrop.Numeral
