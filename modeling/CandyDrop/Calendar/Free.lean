import CandyDrop.Calendar.Pattern
import CandyDrop.Calendar.Shape
import CandyDrop.Text.Integer

/-!
# Dates in free form

Dates as people write them. A text is tried against families of forms in a fixed order. Each form
has a shape, which the text must have, and patterns, of which the first that applies gives the
fields. A form answers in one of three ways: it does not apply and the next one is tried, it gives
a moment, or it rejects the text for all forms, because it ends in an offset that does not exist.

A date without a time takes the present time of day, a time without a date the present day. In
patterns `%f` is a fraction of a second with its point, if there is one, `%z` an offset and `%Z` a
word that is passed over.
-/

namespace CandyDrop.Calendar.Free

/-- What a form says about a text. -/
inductive Verdict where
  | pass
  | moment (m : Int)
  | reject
  deriving DecidableEq

/-- The verdict of a form that may only pass or give a moment. -/
def Verdict.ofOption : Option Int → Verdict
  | some m => .moment m
  | none => .pass

/-- The first verdict that does not pass. -/
def firstVerdict : List (Unit → Verdict) → Verdict
  | [] => .pass
  | v :: vs =>
    match v () with
    | .pass => firstVerdict vs
    | verdict => verdict

/-! ## Pieces of shapes -/

def digits (least most : Nat) : Shape := .run Char.isDigit least most

def letters (least most : Nat) : Shape := .run Char.isAlpha least most

def char (c : Char) : Shape := .word [c]

/-- White space without a bound: no text is longer than `most`. -/
def blanks (least most : Nat) : Shape := .run Text.isBlank least (most + 1)

/-- Seconds after a minute. -/
def seconds : Shape := .opt (.all [char ':', digits 2 2])

def fraction : Shape := .opt (.all [char '.', digits 1 9])

def half : Shape :=
  .opt (.either (.word ['a', 'm']) (.either (.word ['p', 'm'])
    (.either (.word ['A', 'M']) (.word ['P', 'M']))))

/-- Characters of zones: letters, digits and everything between the plus sign and the colon. -/
def isZoneChar (c : Char) : Bool := c.isAlpha || ('+' ≤ c && c ≤ ':')

/-- A zone at the end. -/
def zone : Shape := .run isZoneChar 3 6

/-- A comma that may be left out. -/
def comma : Shape := .opt (char ',')

/-! ## Zones -/

/-- The hours east of universal time of a zone name in small letters. A name that mail headers do
not know stands for universal time. -/
def zoneHours (name : List Char) : Int := (Mail.zoneHours? name).getD 0

/-- Hours and minutes with a sign; what follows is ignored. -/
def numericZone? (between : Scan Unit) (cs : List Char) : Option Int :=
  let read : Scan Int := do
    let s ← Scan.sign false
    let seconds ← Scan.hoursMinutes between
    Scan.withinDay (s * seconds)
  (read cs).map (·.1)

/-- The offset that a zone at the end of a text stands for. The letters at its start are a name,
after which nothing counts, unless there is a colon: then it has to be hours and minutes. -/
def zoneOffset? (cs : List Char) : Option Int :=
  let name := cs.takeWhile Char.isAlpha
  if cs.contains ':' then
    numericZone? (modify (·.dropWhile fun c => c == ':' || Text.isBlank c)) cs
  else if name.isEmpty then numericZone? (pure ()) cs
  else some (3600 * zoneHours (name.map Char.toLower))

/-- The verdict of a form that ends in a zone: `body` is the shape of what stands before the zone
and `tail` that of the zone. -/
def withZone (body tail : Shape) (cs : List Char) (read : (offset : Int) → Option Int) : Verdict :=
  match Shape.split? body tail cs with
  | none => .pass
  | some z =>
    match zoneOffset? (Text.strip Text.isBlank z) with
    | none => .reject
    | some offset => .ofOption (read offset)

/-! ## Forms -/

/-- The verdict of a form without a zone. -/
def plain (shape : Shape) (cs : List Char) (read : Option Int) : Verdict :=
  if shape.fits cs then .ofOption read else .pass

/-- A day in one of the patterns, at the present time of day. -/
def dayNow (now : Int) (patterns : List String) (cs : List Char) : Option Int :=
  (Pattern.first? patterns Written.day? cs).map fun d => moment d (timeAt now 0) 0

/-- A day and a time in one of the patterns. -/
def dayTime (patterns : List String) (cs : List Char) : Option Int :=
  Pattern.first? patterns Written.moment? cs

/-- The patterns of a time after those of a day. -/
def timesAfter (day : String) (times : List String) : List String := times.map (day ++ " " ++ ·)

/-- Every `old` in a text, replaced. -/
def replace (old new : List Char) : List Char → List Char
  | [] => []
  | c :: cs =>
    if old.isPrefixOf (c :: cs) ∧ old ≠ [] then
      new ++ replace old new (cs.drop (old.length - 1))
    else c :: replace old new cs
termination_by cs => cs.length
decreasing_by all_goals simp; try omega

/-- `2021-12-25` and what may follow it. -/
def yearFirst (now : Int) (cs : List Char) : Verdict :=
  let n := cs.length
  let day := Shape.all [digits 4 4, char '-', digits 2 2, char '-', digits 2 2]
  let clock := Shape.all
    [day, blanks 1 n, digits 2 2, char ':', digits 2 2, seconds, fraction]
  let numericZone := Shape.run (fun c => '+' ≤ c && c ≤ ':') 3 6
  let looseZone := Shape.all [blanks 0 n, zone]
  if !(Shape.all [digits 4 4, char '-', digits 2 2]).begins cs then .pass
  else firstVerdict
    [fun _ => plain (.seq clock numericZone) cs (Pattern.first?
        ["%Y-%m-%d %H:%M:%S%z", "%Y-%m-%d %H:%M:%S%f%z", "%Y-%m-%d %H:%M%z"]
        Written.offsetMoment? cs),
     fun _ => plain (.all [clock, blanks 0 n, half]) cs (dayTime (timesAfter "%Y-%m-%d"
        ["%H:%M:%S", "%H:%M", "%H:%M:%S%f", "%I:%M:%S %P", "%I:%M %P"]) cs),
     fun _ => withZone clock looseZone cs fun offset =>
        (dayTime (timesAfter "%Y-%m-%d" ["%H:%M:%S %Z", "%H:%M %Z", "%H:%M:%S%f %Z"]) cs).map
          (· - offset),
     fun _ => plain day cs (dayNow now ["%Y-%m-%d"] cs),
     fun _ => withZone day looseZone cs fun offset =>
        (Pattern.first? ["%Y-%m-%d %Z"] Written.day? cs).map fun d =>
          moment d (timeAt now offset) offset]

/-- `10:30` and what may follow it, on the present day. -/
def timeOnly (now : Int) (cs : List Char) : Verdict :=
  let n := cs.length
  let clock := Shape.all
    [digits 1 2, char ':', digits 2 2, seconds, blanks 0 n, half]
  let times := ["%H:%M:%S", "%H:%M", "%I:%M:%S %P", "%I:%M %P"]
  if !(Shape.all [digits 1 2, char ':', digits 2 2]).begins cs then .pass
  else firstVerdict
    [fun _ => plain clock cs ((Pattern.first? times Written.time? cs).map fun t =>
        moment (dayAt now 0) t 0),
     fun _ => withZone clock (.all [blanks 1 n, zone]) cs fun offset =>
        (Pattern.first? (times.map (· ++ " %Z")) Written.time? cs).map fun t =>
          moment (dayAt now offset) t offset]

/-- `2021-Dec-25`. -/
def yearMonthName (now : Int) (cs : List Char) : Verdict :=
  plain (.all [digits 4 4, char '-', letters 3 9, char '-', digits 2 2]) cs
    (dayNow now ["%Y-%m-%d", "%Y-%b-%d"] cs)

/-- `Dec 25` and what may follow it. -/
def monthFirst (now : Int) (cs : List Char) : Verdict :=
  let n := cs.length
  let clock := Shape.all
    [digits 1 2, char ':', digits 2 2, seconds]
  let name := Shape.all [letters 3 9, .opt (char '.'), blanks 1 n]
  let spaced := replace ['.', ' '] [' '] (replace [',', ' '] [' '] cs)
  if !(Shape.all [name, digits 1 2]).begins cs then .pass
  else firstVerdict
    [fun _ =>
        let withYear := (Text.ofInt (dayAt now 0).year).toList ++ ' ' :: cs
        plain (.all [letters 3 3, blanks 1 n, digits 1 2, blanks 0 n, .opt (.word ['a', 't']),
            blanks 1 n, clock, blanks 0 n, half]) cs
          (dayTime ["%Y %b %d at %I:%M %P", "%Y %b %d %H:%M:%S"] withYear),
     fun _ => plain (.all [name, digits 1 2, char ',', blanks 1 n, digits 2 4, comma, blanks 1 n,
            clock, fraction, blanks 0 n, half]) cs
        (dayTime (timesAfter "%B %d %Y" ["%H:%M:%S", "%H:%M", "%I:%M:%S %P", "%I:%M %P"]) spaced),
     fun _ => withZone
        (.all [letters 3 9, blanks 1 n, digits 1 2, comma, blanks 1 n, digits 4 4, blanks 0 n,
          comma, .opt (.word ['a', 't']), blanks 1 n, digits 2 2, char ':', digits 2 2, seconds,
          blanks 0 n, half])
        (.all [blanks 1 n, zone]) cs fun offset =>
          (dayTime (timesAfter "%B %d %Y"
              ["%H:%M:%S %Z", "%H:%M %Z", "%I:%M:%S %P %Z", "%I:%M %P %Z"])
            (replace ['a', 't'] [] (replace [','] [] cs))).map (· - offset),
     fun _ => plain (.all [name, digits 1 2, char ',', blanks 1 n, digits 2 4]) cs
        (dayNow now ["%B %d %y", "%B %d %Y"] spaced)]

/-- The forms of a time after a day, on a clock of 24 hours and of twelve. -/
def clockForms : List String := ["%H:%M:%S", "%H:%M", "%H:%M:%S%f", "%I:%M:%S %P", "%I:%M %P"]

/-- `25 December 2021` and what may follow it. -/
def dayFirst (now : Int) (cs : List Char) : Verdict :=
  let n := cs.length
  let start := Shape.all [digits 1 2, blanks 1 n, letters 3 9]
  let day := Shape.all [start, blanks 1 n, digits 2 4]
  if !start.begins cs then .pass
  else firstVerdict
    [fun _ => plain (.all [day, comma, blanks 1 n, digits 1 2, char ':', digits 2 2, seconds,
            fraction]) cs
        (dayTime (timesAfter "%d %B %Y" clockForms) (replace [',', ' '] [' '] cs)),
     fun _ => plain day cs (dayNow now ["%d %B %y", "%d %B %Y"] cs)]

/-- The shape of a day with slashes and a time after it. -/
def slashTime (day : Shape) (n : Nat) : Shape :=
  .all [day, blanks 1 n, digits 1 2, char ':', digits 2 2, seconds, fraction, blanks 0 n, half]

/-- `12/25/2021` and what may follow it. -/
def slashMonthFirst (now : Int) (cs : List Char) : Verdict :=
  let start := Shape.all [digits 1 2, char '/', digits 1 2]
  let day := Shape.all [start, char '/', digits 2 4]
  if !start.begins cs then .pass
  else firstVerdict
    [fun _ => plain (slashTime day cs.length) cs (dayTime
        (timesAfter "%m/%d/%y" clockForms ++ timesAfter "%m/%d/%Y" clockForms) cs),
     fun _ => plain day cs (dayNow now ["%m/%d/%y", "%m/%d/%Y"] cs)]

/-- `2021/12/25` and what may follow it. -/
def slashYearFirst (now : Int) (cs : List Char) : Verdict :=
  let start := Shape.all [digits 4 4, char '/', digits 1 2]
  let day := Shape.all [start, char '/', digits 1 2]
  if !start.begins cs then .pass
  else firstVerdict
    [fun _ => plain (slashTime day cs.length) cs (dayTime (timesAfter "%Y/%m/%d" clockForms) cs),
     fun _ => plain day cs (dayNow now ["%Y/%m/%d"] cs)]

/-- `12.25.2021` and other orders; of a month alone the present day of the month is meant. -/
def dotted (now : Int) (cs : List Char) : Verdict :=
  let shape := Shape.all [digits 1 4, .run (· != '\n') 1 1, digits 1 4, digits 1 4]
  let today := '.' :: (dayAt now 0).day.repr.toList
  if !shape.occurs cs then .pass
  else .ofOption <|
    (dayNow now ["%m.%d.%y", "%m.%d.%Y", "%Y.%m.%d"] cs).or
      (dayNow now ["%Y.%m.%d"] (cs ++ today))

/-- `211225 10:30:00`, as databases log it. -/
def logged (cs : List Char) : Verdict :=
  let shape := Shape.all [digits 6 6, blanks 1 cs.length, digits 2 2, char ':', digits 2 2,
    char ':', digits 2 2]
  if !shape.occurs cs then .pass else .ofOption (dayTime ["%y%m%d %H:%M:%S"] cs)

/-- A date, and perhaps a time, in Chinese. -/
def chinese (now : Int) (cs : List Char) : Verdict :=
  let day := Shape.all [digits 4 4, char '年', digits 2 2, char '月', digits 2 2, char '日']
  let clock := Shape.all [day, digits 2 2, char '时', digits 2 2, char '分', digits 2 2, char '秒']
  firstVerdict
    [fun _ => plain clock cs (dayTime ["%Y年%m月%d日%H时%M分%S秒"] cs),
     fun _ => plain day cs (dayNow now ["%Y年%m月%d日"] cs)]

/-- The moment of a date in one of the free forms. -/
def moment? (now : Int) (cs : List Char) : Option Int :=
  match firstVerdict
    [fun _ => yearFirst now cs, fun _ => timeOnly now cs, fun _ => yearMonthName now cs,
     fun _ => monthFirst now cs, fun _ => dayFirst now cs, fun _ => slashMonthFirst now cs,
     fun _ => slashYearFirst now cs, fun _ => dotted now cs, fun _ => logged cs,
     fun _ => chinese now cs] with
  | .moment m => some m
  | _ => none

end CandyDrop.Calendar.Free
