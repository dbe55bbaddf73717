import CandyDrop.Failure
import CandyDrop.Text.Blank

/-!
# The last line of a failed command

Messages of the cluster may be long. The user is shown the error code of the candy machine program
if there is one, and otherwise the first line that says something.
-/

namespace CandyDrop.Report

/-- What stands in front of an error code. -/
def codeMark : List Char := "custom program error: ".toList

/-- What stands in front of what a program logged. -/
def logMark : List Char := "Program log:".toList

/-- What follows the first occurrence of `mark`. -/
def after? (mark : List Char) : List Char → Option (List Char)
  | [] => if mark = [] then some [] else none
  | c :: cs =>
    if mark.isPrefixOf (c :: cs) then some ((c :: cs).drop mark.length) else after? mark cs

/-- A line of a message without the white space at both ends, unless it says nothing. -/
def useful? (line : List Char) : Option (List Char) :=
  let line := Text.strip Text.isBlank line
  if line.isEmpty || logMark.isPrefixOf line then none else some line

/-- What the user is shown of a message. -/
def ofMessage (message : String) : String :=
  match after? codeMark message.toList with
  | some rest => "Candy Machine program error " ++ String.ofList (Text.firstWord rest)
  | none =>
    match (message.toList.splitOn '\n').findSome? useful? with
    | some line => String.ofList line
    | none => message

end CandyDrop.Report
