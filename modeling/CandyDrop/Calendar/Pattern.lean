import CandyDrop.Calendar.Standard

/-!
# Date patterns

A pattern tells which fields a written date has and in which order, with a letter after a percent
sign for each field: `%Y-%m-%d %H:%M`. A number may have fewer digits than its field and white
space before it, and a space in the pattern stands for any white space, also none. A pattern has to
account for the whole text. What it finds is a `Written` date, from which a day, a time and an
offset are taken.
-/

namespace CandyDrop.Calendar

/-- The fields found in a text. -/
structure Written where
  year : Option Int
  yearOfCentury : Option Nat
  month : Option Nat
  day : Option Nat
  hour : Option Nat
  /-- The hour on a clock of twelve. -/
  clockHour : Option Nat
  afternoon : Option Bool
  minute : Option Nat
  second : Option Nat
  offset : Option Int

namespace Written

/-- No field yet. -/
def nothing : Written := ⟨none, none, none, none, none, none, none, none, none, none⟩

/-- The year; one of two digits lies between 1970 and 2069. -/
def year? (w : Written) : Option Int :=
  match w.year, w.yearOfCentury with
  | some y, _ => some y
  | none, some r => some (if r < 70 then r + 2000 else r + 1900)
  | none, none => none

/-- The day, if there is one. -/
def day? (w : Written) : Option Day := do
  let d : Day := ⟨← w.year?, ← w.month, ← w.day⟩
  if d.isValid then some d else none

/-- The hour of the day. -/
def hour? (w : Written) : Option Nat :=
  match w.hour, w.clockHour, w.afternoon with
  | some h, _, _ => some h
  | none, some h, some afternoon =>
    if 1 ≤ h ∧ h ≤ 12 then some (h % 12 + if afternoon then 12 else 0) else none
  | _, _, _ => none

/-- The time of day; without seconds it is the full minute. -/
def time? (w : Written) : Option Int := do
  timeOfDay? (← w.hour?) (← w.minute) (w.second.getD 0)

/-- The moment of a day and a time in universal time. -/
def moment? (w : Written) : Option Int := do Calendar.moment? (← w.day?) (← w.time?) 0

/-- The moment of a day and a time at the offset that was written. -/
def offsetMoment? (w : Written) : Option Int := do
  Calendar.moment? (← w.day?) (← w.time?) (← w.offset)

end Written

namespace Pattern

open Scan

/-- A number of at most `most` digits, with white space before it. -/
def field (most : Nat) : Scan Nat := do
  blanks
  number 1 most

/-- A year of at most four digits, or with a sign and any number of them. -/
def year : Scan Int := do
  blanks
  fun cs =>
    match cs with
    | '-' :: rest => (number 1 rest.length rest).map fun (n, cs) => (-(n : Int), cs)
    | '+' :: rest => (number 1 rest.length rest).map fun (n, cs) => ((n : Int), cs)
    | _ => (number 1 4 cs).map fun (n, cs) => ((n : Int), cs)

/-- Whether the time is after noon. -/
def afternoon : Scan Bool := do
  return (← name [['a', 'm'], ['p', 'm']]) == 1

/-- An offset with optional minutes, or `Z`. -/
def offset : Scan Int := do
  blanks
  fun cs =>
    match cs with
    | 'z' :: rest => some (0, rest)
    | 'Z' :: rest => some (0, rest)
    | cs => (do
        let s ← sign true
        let hours ← number 2 2
        modify (·.dropWhile fun c => c == ':' || Text.isBlank c)
        if (← get).isEmpty then withinDay (s * (3600 * hours))
        else
          let minutes ← number 2 2
          if minutes < 60 then withinDay (s * (3600 * hours + 60 * minutes)) else failure :
        Scan Int) cs

/-- Reads a field by its letter. -/
def readField (c : Char) (w : Written) : Scan Written := do
  match c with
  | 'Y' => return { w with year := some (← year) }
  | 'y' => return { w with yearOfCentury := some (← field 2) }
  | 'm' => return { w with month := some (← field 2) }
  | 'd' => return { w with day := some (← field 2) }
  | 'H' => return { w with hour := some (← field 2) }
  | 'I' => return { w with clockHour := some (← field 2) }
  | 'M' => return { w with minute := some (← field 2) }
  | 'S' => return { w with second := some (← field 2) }
  | 'f' => do fraction; return w
  | 'B' => return { w with month := some (← month) }
  | 'b' => return { w with month := some (← shortMonth) }
  | 'P' => return { w with afternoon := some (← afternoon) }
  | 'Z' => do modify (·.dropWhile (!Text.isBlank ·)); return w
  | 'z' => return { w with offset := some (← offset) }
  | _ => failure

/-- Reads what is left of a pattern. -/
def read : List Char → Written → Scan Written
  | [], w => pure w
  | '%' :: c :: p, w => do read p (← readField c w)
  | c :: p, w => do
    if Text.isBlank c then blanks else char c
    read p w

/-- The fields of a text that has the form of a pattern. -/
def read? (pattern : String) (cs : List Char) : Option Written :=
  (read pattern.toList Written.nothing).run? cs

/-- The first of the patterns for which `take` finds what it wants. -/
def first? {α : Type} (patterns : List String) (take : Written → Option α) (cs : List Char) :
    Option α :=
  patterns.findSome? fun p => (read? p cs).bind take

end Pattern

end CandyDrop.Calendar
