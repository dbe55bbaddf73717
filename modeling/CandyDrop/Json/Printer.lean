import CandyDrop.Binary64.Style
import CandyDrop.Bytes
import CandyDrop.Json.Basic
import CandyDrop.Text.Integer

/-!
# Writing JSON

Values are written without white space. In a string the quote, the backslash and the control
characters are escaped, five of them by a letter, and everything else stands for itself. Members
are written in the order in which they stand.
-/

namespace CandyDrop.Json

/-- Doubles keep a point, and are positional for exponents of the first digit from -5 to 15. -/
def realStyle : DecimalStyle := ⟨some (-5, 15), true, true, 1⟩

/-- The characters of one character in a string. -/
def escape (c : Char) : List Char :=
  if c = '"' then ['\\', '"']
  else if c = '\\' then ['\\', '\\']
  else if c = '\x08' then ['\\', 'b']
  else if c = '\t' then ['\\', 't']
  else if c = '\n' then ['\\', 'n']
  else if c = '\x0c' then ['\\', 'f']
  else if c = '\r' then ['\\', 'r']
  else if c < ' ' then
    ['\\', 'u', '0', '0', Bytes.hexDigit (c.toNat / 16), Bytes.hexDigit c.toNat]
  else [c]

/-- A text in quotes. -/
def quote (s : String) : List Char := '"' :: s.toList.flatMap escape ++ ['"']

/-- The text of a number. -/
def Number.chars : Number → List Char
  | .integer i => (Text.ofInt i).toList
  | .real x => (x.render realStyle).toList

mutual

/-- The characters of a value. -/
def chars : Json → List Char
  | .null => ['n', 'u', 'l', 'l']
  | .bool true => ['t', 'r', 'u', 'e']
  | .bool false => ['f', 'a', 'l', 's', 'e']
  | .number n => n.chars
  | .text s => quote s
  | .array [] => ['[', ']']
  | .array (v :: vs) => '[' :: chars v ++ itemChars vs
  | .object [] => ['\x7b', '\x7d']
  | .object ((k, v) :: ms) => '\x7b' :: quote k ++ ':' :: chars v ++ memberChars ms
  | .unreadable => []

/-- The characters of the items after the first one, and the bracket. -/
def itemChars : List Json → List Char
  | [] => [']']
  | v :: vs => ',' :: chars v ++ itemChars vs

/-- The characters of the members after the first one, and the brace. -/
def memberChars : List (String × Json) → List Char
  | [] => ['\x7d']
  | (k, v) :: ms => ',' :: quote k ++ ':' :: chars v ++ memberChars ms

end

/-- The text of a value. -/
def render (j : Json) : String := String.ofList j.chars

end CandyDrop.Json
