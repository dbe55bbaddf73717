import CandyDrop.Text.Integer
import CandyDrop.Text.RegularExpression

/-!
# Directives of a log filter

A directive is a level, or a target, a span or both, with a level after an equals sign or without
one: `warn`, `mint=debug`, `mint[round]`, `[round{number=1}]=trace`. A target and a span restrict
what is logged; a level alone does not.

The parts of a directive are found in its text without the white space at both ends, but a level or
a field is then taken from the same bytes of the full text.
-/

namespace CandyDrop.LogDirective

/-! ## Bytes of a text -/

/-- The number of bytes of a text. -/
def size : List Char → Nat
  | [] => 0
  | c :: cs => c.utf8Size + size cs

/-- What follows the first `n` bytes of a text, if no character lies across the place. -/
def dropBytes? : (n : Nat) → List Char → Option (List Char)
  | 0, cs => some cs
  | _ + 1, [] => none
  | n + 1, c :: cs => if c.utf8Size ≤ n + 1 then dropBytes? (n + 1 - c.utf8Size) cs else none

/-- The first `n` bytes of a text, if no character lies across the place. -/
def takeBytes? (n : Nat) (cs : List Char) : Option (List Char) :=
  (dropBytes? n cs).map fun rest => cs.take (cs.length - rest.length)

/-! ## Levels -/

/-- The levels by their names. -/
def levels : List String := ["trace", "debug", "info", "warn", "error", "off"]

/-- A level by its name in any case or by its number. -/
def isLevel (cs : List Char) : Bool :=
  levels.contains (String.ofList (cs.map Char.toLower)) || (Text.natural? cs).any (· ≤ 5)

/-! ## Fields -/

/-- A number with a point or an exponent, as binary fractions are written: digits before or after
the point. -/
def isPlainNumber (cs : List Char) : Bool :=
  let whole := cs.takeWhile Char.isDigit
  let rest := cs.drop whole.length
  let (part, rest) :=
    match rest with
    | '.' :: rest => (rest.takeWhile Char.isDigit, rest.dropWhile Char.isDigit)
    | rest => ([], rest)
  let exponent :=
    match rest with
    | [] => true
    | c :: '-' :: rest => (c == 'e' || c == 'E') && (Text.digits? rest).isSome
    | c :: rest => (c == 'e' || c == 'E') && (Text.natural? rest).isSome
  !(whole ++ part).isEmpty && exponent

/-- A number with a sign or without one, also an infinite one and none at all. -/
def isNumber (cs : List Char) : Bool :=
  let cs :=
    match cs with
    | '+' :: cs => cs
    | '-' :: cs => cs
    | cs => cs
  ["inf", "infinity", "nan"].contains (String.ofList (cs.map Char.toLower)) || isPlainNumber cs

/-- Whether a field of a span can be looked for: its name is followed by nothing, or by an equals
sign and a number or a regular expression. What a second equals sign starts does not count. -/
def isField (cs : List Char) : Bool :=
  match cs.dropWhile (· != '=') with
  | [] => !cs.isEmpty
  | _ :: rest =>
    let value := rest.takeWhile (· != '=')
    isNumber value || Text.isRegularExpression value

/-! ## Parts of a directive -/

/-- Whether the text of a directive is a level from a byte on, or ends there. -/
def endsInLevel (text : List Char) (byte : Nat) : Bool :=
  match dropBytes? byte text with
  | some cs => cs.isEmpty || isLevel cs
  | none => false

/-- Whether a directive ends well after a span, where `cs` is left of it from a byte on. -/
def endsAfterSpan (text : List Char) (byte : Nat) : List Char → Bool
  | [] => true
  | '=' :: _ => endsInLevel text (byte + 1)
  | _ => false

/-- Whether a directive goes on as a span with its bracket open, where `cs` is left of it from a
byte on: a name, which may be empty, and perhaps a field in braces. -/
def endsInSpan (text : List Char) (byte : Nat) (cs : List Char) : Bool :=
  let name := cs.takeWhile fun c => c != ']' && c != '\x7b'
  let byte := byte + size name + 1
  match cs.drop name.length with
  | ']' :: rest => endsAfterSpan text byte rest
  | '\x7b' :: rest =>
    let field := rest.takeWhile (· != '\x7d')
    match rest.drop field.length with
    | '\x7d' :: ']' :: rest =>
      ((dropBytes? byte text).bind (takeBytes? (size field))).any isField
        && endsAfterSpan text (byte + size field + 2) rest
    | _ => false
  | _ => false

/-- Whether a directive can start with a character. -/
def isStart (c : Char) : Bool :=
  ['[', '-', ':', '_'].contains c || Text.isAlphanumeric c

/-- Whether a directive restricts what is logged, if the text is one. -/
def restricts? (text : List Char) : Option Bool :=
  let cs := Text.strip Text.isBlank text
  let head := cs.takeWhile fun c => c != '=' && c != '['
  let byte := size head + 1
  if !cs.head?.any isStart then none
  else
    match cs.drop head.length with
    | [] => some !isLevel text
    | '=' :: _ => if endsInLevel text byte then some true else none
    | _ :: rest => if endsInSpan text byte rest then some true else none

end CandyDrop.LogDirective
