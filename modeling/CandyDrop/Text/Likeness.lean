import CandyDrop.Binary64.Basic

/-!
# Likeness of words

How alike two words are, from zero to one. Characters of one word are matched with equal characters
of the other that do not stand too far away. What counts is the share of matched characters in
either word and the share of matches that keep the order; a common start brings the result closer
to one. The steps are done in double precision, each rounded, because words at the very limit of
being alike are told apart by it.
-/

namespace CandyDrop.Text

/-- The places of the second word that are matched so far. -/
structure Matching where
  /-- The matched places. -/
  taken : List Nat
  /-- The place of the last match. -/
  last : Nat
  /-- The matches that stand before the match made ahead of them. -/
  crossed : Nat

namespace Matching

/-- No match yet. -/
def none : Matching := ⟨[], 0, 0⟩

/-- How far apart matched characters may stand in words of these lengths. -/
def reach (m n : Nat) : Nat := max m n / 2 - 1

/-- The first free place of `c` that is at most `reach` away from `i`. -/
def place? (word : List Char) (reach i : Nat) (c : Char) (m : Matching) : Option Nat :=
  (List.range word.length).find? fun j =>
    i - reach ≤ j && j ≤ i + reach && word[j]? == some c && !m.taken.contains j

/-- Matches the character `c` at place `i`, if there is a place for it. -/
def step (word : List Char) (reach : Nat) (m : Matching) (c : Char) (i : Nat) : Matching :=
  match m.place? word reach i c with
  | some j => ⟨j :: m.taken, j, if j < m.last then m.crossed + 1 else m.crossed⟩
  | .none => m

/-- Matches the characters of `a` one after another with those of `b`. -/
def ofWords (a b : List Char) : Matching :=
  a.zipIdx.foldl (fun m (c, i) => m.step b (reach a.length b.length) c i) none

end Matching

/-- The share of matched characters and of those in order. -/
def matchedShare (a b : List Char) : Binary64 :=
  let m := Matching.ofWords a b
  let matched := m.taken.length
  let whole := Binary64.ofNat matched
  if matched = 0 then Binary64.zero false
  else
    let sum := ((whole.div (Binary64.ofNat a.length)).add
      (whole.div (Binary64.ofNat b.length))).add
        ((Binary64.ofNat (matched - m.crossed)).div whole)
    ((Binary64.ofNat 1).div (Binary64.ofNat 3)).mul sum

/-- The number of characters at the start that two words share. -/
def commonStart : List Char → List Char → Nat
  | a :: as, b :: bs => if a = b then commonStart as bs + 1 else 0
  | _, _ => 0

/-- How alike two words are; each common character at the start takes off a tenth of what is
missing. -/
def likeness (a b : List Char) : Binary64 :=
  let share := matchedShare a b
  let tenth := (Binary64.ofNat 1).div (Binary64.ofNat 10)
  share.add ((tenth.mul (Binary64.ofNat (commonStart a b))).mul ((Binary64.ofNat 1).sub share))

/-- Above this likeness one word may be meant by another. -/
def likenessLimit : Binary64 := (Binary64.ofNat 8).div (Binary64.ofNat 10)

/-- Whether one word may be meant by another. Neither side is negative, and so the bits tell which
is greater. -/
def isLike (a b : String) : Bool :=
  decide (likenessLimit.bits < (likeness a.toList b.toList).bits)

end CandyDrop.Text
