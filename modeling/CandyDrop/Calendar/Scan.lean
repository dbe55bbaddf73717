import CandyDrop.Text.Blank

/-!
# Pieces of dates

Readers for the pieces that written dates are made of: numbers of a few digits, names of months
and days, and offsets from universal time. Each takes its piece off the front of a text and gives
what is left.
-/

namespace CandyDrop.Calendar

open Text (isBlank)

/-- Takes a value off the front of a text. -/
abbrev Scan := StateT (List Char) Option

namespace Scan

/-- Passes over white space, if there is any. -/
def blanks : Scan Unit := modify (·.dropWhile isBlank)

/-- Passes over white space of at least one character. -/
def gap : Scan Unit := fun cs =>
  match cs with
  | c :: cs => if isBlank c then some ((), cs.dropWhile isBlank) else none
  | [] => none

/-- A given character. -/
def char (c : Char) : Scan Unit := fun cs =>
  match cs with
  | d :: cs => if d = c then some ((), cs) else none
  | [] => none

/-- The next character, if it is the given one. -/
def opt (c : Char) : Scan Bool := fun cs =>
  match cs with
  | d :: rest => if d = c then some (true, rest) else some (false, cs)
  | [] => some (false, cs)

/-- Decimal digits, as many as there are between `least` and `most`. -/
def digits (least most : Nat) : Scan (List Char) := fun cs =>
  let ds := (cs.take most).takeWhile Char.isDigit
  if ds.length < least then none else some (ds, cs.drop ds.length)

/-- The number that digits spell, as many as there are between `least` and `most`. -/
def number (least most : Nat) : Scan Nat := do return Nat.ofDigitChars 10 (← digits least most) 0

/-- All decimal digits at the front, at least one. -/
def allDigits : Scan (List Char) := fun cs => digits 1 cs.length cs

/-- The fraction of a second, which no moment keeps. -/
def fraction : Scan Unit := do
  if ← opt '.' then discard allDigits

/-- The name of `names` that the text starts with in any case, by its place. -/
def name (names : List (List Char)) : Scan Nat := fun cs =>
  let lower := cs.map Char.toLower
  match names.findIdx? fun n => n.isPrefixOf lower with
  | some i => some (i, cs.drop (names.getD i []).length)
  | none => none

/-- The months by their first three letters. -/
def months : List (List Char) :=
  ["jan".toList, "feb".toList, "mar".toList, "apr".toList, "may".toList, "jun".toList,
   "jul".toList, "aug".toList, "sep".toList, "oct".toList, "nov".toList, "dec".toList]

/-- What the full names of the months have after their first three letters. -/
def monthEndings : List (List Char) :=
  ["uary".toList, "ruary".toList, "ch".toList, "il".toList, [], "e".toList, "y".toList,
   "ust".toList, "tember".toList, "ober".toList, "ember".toList, "ember".toList]

/-- The days of the week by their first three letters. -/
def weekdays : List (List Char) :=
  ["mon".toList, "tue".toList, "wed".toList, "thu".toList, "fri".toList, "sat".toList,
   "sun".toList]

/-- A month by its first three letters, counted from 1. -/
def shortMonth : Scan Nat := do return (← name months) + 1

/-- A month by its first three letters or its full name, counted from 1. -/
def month : Scan Nat := do
  let i ← name months
  let ending := monthEndings.getD i []
  modify fun cs => if ending.isPrefixOf (cs.map Char.toLower) then cs.drop ending.length else cs
  return i + 1

/-- Two digits of an hour and two of a minute below 60, in seconds. -/
def hoursMinutes (between : Scan Unit) : Scan Int := do
  let hours ← number 2 2
  between
  let minutes ← number 2 2
  if minutes < 60 then return 3600 * (hours : Int) + 60 * minutes else failure

/-- The sign of an offset, east or west; a long minus counts as one where `long` is set. -/
def sign (long : Bool) : Scan Int := fun cs =>
  match cs with
  | '+' :: cs => some (1, cs)
  | '-' :: cs => some (-1, cs)
  | '\u2212' :: cs => if long then some (-1, cs) else none
  | _ => none

/-- An offset that is less than a day. -/
def withinDay (seconds : Int) : Scan Int :=
  if -86400 < seconds ∧ seconds < 86400 then return seconds else failure

/-- Nothing may be left. -/
def run? {α : Type} (s : Scan α) (cs : List Char) : Option α :=
  match s cs with
  | some (x, []) => some x
  | _ => none

end Scan

end CandyDrop.Calendar
