import CandyDrop.Calendar.Day
import CandyDrop.Calendar.Scan

/-!
# Standard dates

The two standard forms of a full date: that of mail headers (RFC 2822, `25 Dec 2021 00:00:00 GMT`)
and that of the internet (RFC 3339, `2021-12-25T00:00:00Z`). Both give a moment. Neither takes a
text of digits alone for a date.
-/

namespace CandyDrop.Calendar

/-- A time of day within its limits, in seconds. A leap second counts as the one before it. -/
def timeOfDay? (hour minute second : Nat) : Option Int :=
  if hour ≤ 23 ∧ minute ≤ 59 ∧ second ≤ 60 then
    some (3600 * (hour : Int) + 60 * minute + min second 59)
  else none

/-- The moment of a day and a time at an offset, if all of them exist. -/
def momentOf? (d : Day) (hour minute second : Nat) (offset : Int) : Option Int := do
  moment? d (← timeOfDay? hour minute second) offset

namespace Mail

open Scan

/-- A year of two digits lies between 1950 and 2049, one of three after 1900. -/
def fullYear (ds : List Char) : Nat :=
  let n := Nat.ofDigitChars 10 ds 0
  if ds.length = 2 then if n < 50 then n + 2000 else n + 1900
  else if ds.length = 3 then n + 1900
  else n

/-- The hours east of universal time of a zone name in small letters. A single letter is zero,
but there is no zone `j`. -/
def zoneHours? (name : List Char) : Option Int :=
  if name = ['g', 'm', 't'] ∨ name = ['u', 't'] then some 0
  else if name = ['e', 'd', 't'] then some (-4)
  else if name = ['e', 's', 't'] ∨ name = ['c', 'd', 't'] then some (-5)
  else if name = ['c', 's', 't'] ∨ name = ['m', 'd', 't'] then some (-6)
  else if name = ['m', 's', 't'] ∨ name = ['p', 'd', 't'] then some (-7)
  else if name = ['p', 's', 't'] then some (-8)
  else if name.length = 1 ∧ name ≠ ['j'] then some 0
  else none

/-- The offset of a zone, by name or in hours and minutes. -/
def zone : Scan Int := do
  let name := (← get).takeWhile Char.isAlpha
  if name.isEmpty then
    let s ← sign false
    let seconds ← hoursMinutes (pure ())
    withinDay (s * seconds)
  else
    modify (·.drop name.length)
    match zoneHours? (name.map Char.toLower) with
    | some hours => pure (3600 * hours)
    | none => failure

/-- The text after the comment that has been opened `depth` times. -/
def commentRest? : (depth : Nat) → List Char → Option (List Char)
  | 0, cs => some cs
  | _, [] => none
  | _ + 1, ['\\'] => none
  | depth + 1, '\\' :: _ :: cs => commentRest? (depth + 1) cs
  | depth + 1, '(' :: cs => commentRest? (depth + 2) cs
  | depth + 1, ')' :: cs => commentRest? depth cs
  | depth + 1, _ :: cs => commentRest? (depth + 1) cs

/-- Whether a text is nothing but comments, with white space before each; `fuel` bounds their
number. -/
def onlyComments : (fuel : Nat) → List Char → Bool
  | _, [] => true
  | 0, _ => false
  | fuel + 1, cs =>
    match cs.dropWhile Text.isBlank with
    | '(' :: rest =>
      match commentRest? 1 rest with
      | some rest => onlyComments fuel rest
      | none => false
    | _ => false

/-- The day of the week and the comma after it, if a date starts with them. -/
def weekday : Scan (Option Nat) := do
  blanks
  let w ← fun cs =>
    match name weekdays cs with
    | some (i, cs) => some (some i, cs)
    | none => some (none, cs)
  if w.isSome then char ','
  return w

/-- A date with its time and zone. -/
def date : Scan Int := do
  let w ← weekday
  blanks
  let day ← number 1 2
  gap
  let month ← shortMonth
  gap
  let year ← fun cs => digits 2 cs.length cs
  gap
  let hour ← number 2 2
  blanks
  char ':'
  blanks
  let minute ← number 2 2
  let second ← fun cs =>
    match cs.dropWhile Text.isBlank with
    | ':' :: rest => number 2 2 rest
    | _ => some (0, cs)
  gap
  let offset ← zone
  let d : Day := ⟨fullYear year, month, day⟩
  if w.isNone ∨ w = some d.weekday then
    match momentOf? d hour minute second offset with
    | some m => return m
    | none => failure
  else failure

/-- The moment of a date in mail headers, which comments may follow. -/
def moment? (cs : List Char) : Option Int :=
  match date cs with
  | some (m, rest) => if onlyComments (rest.length + 1) rest then some m else none
  | none => none

end Mail

namespace Internet

open Scan

/-- What stands between the date and the time. -/
def separator : Scan Unit := fun cs =>
  match cs with
  | c :: cs => if c = 't' ∨ c = 'T' ∨ c = ' ' then some ((), cs) else none
  | [] => none

/-- The offset: `Z`, or hours and minutes with a colon between them. -/
def zone : Scan Int := fun cs =>
  match cs with
  | 'z' :: rest => some (0, rest)
  | 'Z' :: rest => some (0, rest)
  | cs => (do
      let s ← sign true
      let seconds ← hoursMinutes (char ':')
      withinDay (s * seconds) : Scan Int) cs

/-- A date with its time and zone. -/
def date : Scan Int := do
  let year ← number 4 4
  char '-'
  let month ← number 2 2
  char '-'
  let day ← number 2 2
  separator
  let hour ← number 2 2
  char ':'
  let minute ← number 2 2
  char ':'
  let second ← number 2 2
  fraction
  let offset ← zone
  match momentOf? ⟨year, month, day⟩ hour minute second offset with
  | some m => return m
  | none => failure

/-- The moment of an internet date. -/
def moment? (cs : List Char) : Option Int := date.run? cs

end Internet

end CandyDrop.Calendar
