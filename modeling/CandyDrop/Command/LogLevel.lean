import CandyDrop.Command.LogDirective
import CandyDrop.Failure
import CandyDrop.Text.Quoted

/-!
# The level of the log

The user says what is logged by a filter: directives with commas between them. Only one level for
everything can be used, so a directive that restricts what is logged, although it is one, is
refused.
-/

namespace CandyDrop.LogFilter

/-- The directives of a filter, without the empty ones. -/
def directives (text : String) : List (List Char) :=
  (text.toList.splitOn ',').filter (· ≠ [])

/-- Whether any directive of a filter restricts what is logged. -/
def isRestricted (text : String) : Except LogFault Bool :=
  match (directives text).mapM LogDirective.restricts? with
  | some parts => .ok (parts.any id)
  | none => .error (.invalid (Text.quoted text))

end CandyDrop.LogFilter
