import CandyDrop.Calendar.Free

/-!
# Timestamps from text

A date in a configuration is `now`, a standard date, a number of seconds, or a date in free form,
and is taken for the first of these that it can be. White space around it does not count.
-/

namespace CandyDrop.Calendar

/-- Whether a text is the word `now` in any case. -/
def isNow (cs : List Char) : Bool := cs.map Char.toLower == ['n', 'o', 'w']

/-- The moment that a text without white space around it means at the moment `now`. -/
def ofTrimmed? (now : Int) (s : String) : Option Int :=
  if isNow s.toList then some now
  else (Mail.moment? s.toList).or <| (Internet.moment? s.toList).or <|
    ((Text.int64? s).map Int64.toInt).or <| Free.moment? now s.toList

/-- The moment that a text means at the moment `now`. -/
def timestamp? (now : Int) (s : String) : Option Int := ofTrimmed? now (Text.trim s)

end CandyDrop.Calendar
