/-!
# Days and times

Days of the Gregorian calendar, carried back before its introduction, and their number in the Unix
count of days. A moment is a number of seconds since the start of 1970, in universal time. The
calendar has a first and a last day, and no moment lies outside of them.
-/

namespace CandyDrop.Calendar

/-- A year, a month from 1 and a day from 1. -/
structure Day where
  year : Int
  month : Nat
  day : Nat
  deriving DecidableEq

/-- Whether a year has 366 days. -/
def isLeap (year : Int) : Bool := year % 4 == 0 && (year % 100 != 0 || year % 400 == 0)

/-- The number of days of a month. -/
def daysInMonth (year : Int) (month : Nat) : Nat :=
  if month = 2 then if isLeap year then 29 else 28
  else if month = 4 ∨ month = 6 ∨ month = 9 ∨ month = 11 then 30
  else 31

namespace Day

/-- The first year of the calendar. -/
def firstYear : Int := -262143

/-- The last year of the calendar. -/
def lastYear : Int := 262142

/-- Whether there is such a day. -/
def isValid (d : Day) : Bool :=
  decide (1 ≤ d.month ∧ d.month ≤ 12 ∧ 1 ≤ d.day ∧ d.day ≤ daysInMonth d.year d.month
    ∧ firstYear ≤ d.year ∧ d.year ≤ lastYear)

/-- The number of days from the start of 1970. The year is taken to start in March, so that the
leap day is its last one; 400 years have 146097 days. -/
def number (d : Day) : Int :=
  let year := if d.month ≤ 2 then d.year - 1 else d.year
  let era := year / 400
  let yearOfEra := year - era * 400
  let month : Int := (d.month + 9) % 12
  let dayOfYear := (153 * month + 2) / 5 + d.day - 1
  let dayOfEra := yearOfEra * 365 + yearOfEra / 4 - yearOfEra / 100 + dayOfYear
  era * 146097 + dayOfEra - 719468

/-- The day with a number. -/
def ofNumber (n : Int) : Day :=
  let n := n + 719468
  let era := n / 146097
  let dayOfEra := n - era * 146097
  let yearOfEra := (dayOfEra - dayOfEra / 1460 + dayOfEra / 36524 - dayOfEra / 146096) / 365
  let dayOfYear := dayOfEra - (365 * yearOfEra + yearOfEra / 4 - yearOfEra / 100)
  let shifted := (5 * dayOfYear + 2) / 153
  let month := if shifted < 10 then shifted + 3 else shifted - 9
  let year := yearOfEra + era * 400
  { year := if month ≤ 2 then year + 1 else year
    month := month.toNat
    day := (dayOfYear - (153 * shifted + 2) / 5 + 1).toNat }

/-- The day of the week, counted from Monday. -/
def weekday (d : Day) : Nat := ((d.number + 3) % 7).toNat

end Day

/-- The seconds of a day. -/
def secondsPerDay : Int := 86400

/-- The moment of a time of day, given in seconds, at an offset east of universal time. -/
def moment (d : Day) (time : Int) (offset : Int) : Int := d.number * secondsPerDay + time - offset

/-- The moment at which the calendar starts. -/
def firstMoment : Int := moment ⟨Day.firstYear, 1, 1⟩ 0 0

/-- The moment of the last second of the calendar. -/
def lastMoment : Int := moment ⟨Day.lastYear, 12, 31⟩ (secondsPerDay - 1) 0

/-- The moment of a time of day at an offset, if it falls on a day of the calendar in universal
time as well. -/
def moment? (d : Day) (time offset : Int) : Option Int :=
  let m := moment d time offset
  if d.isValid ∧ firstMoment ≤ m ∧ m ≤ lastMoment then some m else none

/-- The day of a moment as seen at an offset. -/
def dayAt (now offset : Int) : Day := Day.ofNumber ((now + offset) / secondsPerDay)

/-- The time of day of a moment as seen at an offset. -/
def timeAt (now offset : Int) : Int := (now + offset) % secondsPerDay

end CandyDrop.Calendar
