import CandyDrop.Json.Reader
import CandyDrop.Text.Quoted

/-!
# Inspecting a text

Where a text goes wrong, and how, for the user to mend it. An inspection takes bytes off the front
of a text and keeps the line and the column that it has come to; it ends when something is left
that no text of the wanted kind could have there. A byte that was only looked at counts for the
column as well, because whoever looks at a byte has it.

A fault may lack its place at first. It then gets the place at which the value that it belongs to
was left (`Inspection.settle`).
-/

namespace CandyDrop.Json

/-- What is wrong with a text. -/
structure Fault where
  text : String
  /-- The line, counted from 1, and the bytes of it up to there. -/
  place : Option (Nat × Nat)
  deriving DecidableEq

def Fault.message : Fault → String
  | ⟨text, none⟩ => text
  | ⟨text, some (line, column)⟩ =>
    text ++ " at line " ++ line.repr ++ " column " ++ column.repr

/-- How far a text is inspected. -/
structure Cursor where
  /-- The bytes that are left, each as the character with its number. -/
  rest : List Char
  /-- The line and the column of the last byte that was taken. -/
  place : Nat × Nat
  /-- Whether the next byte was looked at. -/
  ahead : Bool
  /-- How many containers may still be opened inside one another, and one more. -/
  depth : Nat
  /-- The number of bytes of the whole text, which bounds that of its parts. -/
  size : Nat

namespace Cursor

/-- The start of a text. -/
def start (bs : Bytes) : Cursor := ⟨bs.map Char.ofUInt8, (1, 0), false, maxDepth + 1, bs.length⟩

/-- The place of a byte after another place. -/
def past (place : Nat × Nat) (b : Char) : Nat × Nat :=
  if b = '\n' then (place.1 + 1, 0) else (place.1, place.2 + 1)

/-- The place of the last byte that was taken or looked at. -/
def reached (c : Cursor) : Nat × Nat :=
  match c.ahead, c.rest with
  | true, b :: _ => past c.place b
  | _, _ => c.place

/-- Takes the bytes of a kind and looks at the one after them. -/
def passOver (c : Cursor) (kind : Char → Bool) : Cursor :=
  { c with
    rest := c.rest.dropWhile kind
    place := (c.rest.takeWhile kind).foldl past c.place
    ahead := true }

end Cursor

/-- Takes bytes off a text, until something is wrong with it. -/
abbrev Inspection := ExceptT Fault (StateM Cursor)

namespace Inspection

variable {α : Type}

/-- A fault at the place that was reached. -/
def refuse (text : String) : Inspection α := do throw ⟨text, some (← get).reached⟩

/-- A fault without a place of its own. -/
def complain (text : String) : Inspection α := throw ⟨text, none⟩

/-- Gives a fault without a place the one that was reached. -/
def settle (x : Inspection α) : Inspection α :=
  tryCatch x fun fault => do
    match fault.place with
    | some _ => throw fault
    | none => refuse fault.text

/-- How an inspection ends, be it with a fault. -/
def observe (x : Inspection α) : Inspection (Except Fault α) :=
  tryCatch (do return .ok (← x)) fun fault => return .error fault

/-- The next byte, which is only looked at. -/
def look : Inspection (Option Char) := do
  modify fun c => { c with ahead := true }
  return (← get).rest.head?

/-- The next byte. -/
def take : Inspection (Option Char) := do
  let c ← get
  match c.rest with
  | [] => return none
  | b :: rest =>
    set { c with rest, place := Cursor.past c.place b, ahead := false }
    return some b

/-- The next byte that is no white space, which is only looked at. -/
def next : Inspection (Option Char) := do
  modify (·.passOver fun b => b == ' ' || b == '\n' || b == '\t' || b == '\r')
  return (← get).rest.head?

def endOfValue : String := "EOF while parsing a value"

def endOfText : String := "EOF while parsing a string"

/-- The rest of a word. -/
def word : List Char → Inspection Unit
  | [] => return ()
  | c :: cs => do
    match ← take with
    | none => refuse endOfValue
    | some b => if b = c then word cs else refuse "expected ident"

/-! ## Numbers -/

/-- Decimal digits, if there are any. -/
def digits : Inspection (List Char) := do
  let ds := (← get).rest.takeWhile Char.isDigit
  modify (·.passOver Char.isDigit)
  return ds

/-- A digit that has to be there, and those after it; `ending` is the fault if the text ends. -/
def someDigits (ending : String) : Inspection (List Char) := do
  match ← take with
  | none => refuse ending
  | some d => if d.isDigit then return d :: (← digits) else refuse "invalid number"

/-- The digits before the point, without a zero at their front. -/
def wholeDigits (ending : String) : Inspection (List Char) := do
  match (← get).rest.head? with
  | some '0' =>
    let _ ← take
    if (← look).any Char.isDigit then refuse "invalid number" else return ['0']
  | _ => someDigits ending

/-- The digits after a point, if there is one. -/
def fractionDigits (ending : String) : Inspection (Option (List Char)) := do
  match ← look with
  | some '.' =>
    let _ ← take
    let ds ← digits
    if ds.isEmpty then
      if (← look).isSome then refuse "invalid number" else refuse ending
    else return some ds
  | _ => return none

/-- The sign of an exponent, if there is one: whether it is negative. -/
def exponentSign : Inspection Bool := do
  match ← look with
  | some '+' =>
    let _ ← take
    return false
  | some '-' =>
    let _ ← take
    return true
  | _ => return false

/-- The exponent, if there is one. -/
def exponent (ending : String) : Inspection (Option (Bool × List Char)) := do
  if (← look).any fun b => b == 'e' || b == 'E' then
    let _ ← take
    let negative ← exponentSign
    return some (negative, ← someDigits ending)
  else return none

/-- A number as it is written, after its sign. -/
def lexeme (negative : Bool) (ending : String) : Inspection Lexeme := do
  let whole ← wholeDigits ending
  let fraction ← fractionDigits ending
  return ⟨negative, whole, fraction, ← exponent ending⟩

/-- A number after its sign. -/
def signedNumber (negative : Bool) : Inspection Number := do
  match (← lexeme negative endOfValue).number? with
  | some n => return n
  | none => refuse "number out of range"

/-- A number whose value does not count, after its sign. -/
def skipNumber : Inspection Unit := discard (lexeme false "invalid number")

/-! ## Texts -/

/-- The next byte of a text in quotes. -/
def takeInText : Inspection Char := do
  match ← take with
  | some b => return b
  | none => refuse endOfText

/-- The number that four hexadecimal digits spell. -/
def hexUnit : Inspection Nat := do
  let a ← takeInText
  let b ← takeInText
  let c ← takeInText
  let d ← takeInText
  match hexUnit? (some a) (some b) (some c) (some d) with
  | some n => return n
  | none => refuse "invalid escape"

/-- A byte that has to follow the first half of a pair of escapes. -/
def pairByte (b : Char) : Inspection Unit := do
  match ← look with
  | none => refuse endOfText
  | some c =>
    let _ ← take
    if c = b then return () else refuse "unexpected end of hex escape"

/-- The bytes of a character. -/
def bytesOf (c : Char) : List Char := (String.utf8EncodeChar c).map Char.ofUInt8

/-- The character of an escape by number, of which two may be needed. -/
def numbered : Inspection (List Char) := do
  let n ← hexUnit
  if 0xDC00 ≤ n ∧ n ≤ 0xDFFF then refuse "lone leading surrogate in hex escape"
  else if 0xD800 ≤ n ∧ n ≤ 0xDBFF then
    pairByte '\\'
    pairByte 'u'
    match pairChar? n (← hexUnit) with
    | some c => return bytesOf c
    | none => refuse "lone leading surrogate in hex escape"
  else return bytesOf (Char.ofNat n)

/-- What an escape stands for, after its backslash. -/
def escape : Inspection (List Char) := do
  let b ← takeInText
  if b = 'u' then numbered
  else
    match escaped? b with
    | some c => return [c]
    | none => refuse "invalid escape"

/-- The bytes of a text up to its closing quote, where `escape` says what follows a backslash;
`fuel` bounds their number. -/
def textBytes (escape : Inspection (List Char)) : (fuel : Nat) → Inspection (List Char)
  | 0 => return []
  | fuel + 1 => do
    let b ← takeInText
    if b = '"' then return []
    else if b = '\\' then return (← escape) ++ (← textBytes escape fuel)
    else if b < ' ' then
      refuse "control character (\\u0000-\\u001F) found while parsing a string"
    else return b :: (← textBytes escape fuel)

/-- A text after its opening quote. -/
def quotedText : Inspection String := do
  let bs ← textBytes escape (← get).size
  match Bytes.toText? (bs.map fun b => UInt8.ofNat b.toNat) with
  | some s => return s
  | none => refuse "invalid unicode code point"

/-- What an escape stands for where it does not count. -/
def skipEscape : Inspection (List Char) := do
  let b ← takeInText
  if b = 'u' then
    let _ ← hexUnit
    return []
  else if (escaped? b).isSome then return []
  else refuse "invalid escape"

/-- A text that does not count, after its opening quote. -/
def skipText : Inspection Unit := do
  let _ ← textBytes skipEscape (← get).size

/-! ## Containers -/

/-- The fault where a text ends inside a container. -/
def endOf : Container → String
  | .array => "EOF while parsing a list"
  | .object => "EOF while parsing an object"

/-- The fault where neither a comma nor the closing bracket follows an item. -/
def unseparated : Container → String
  | .array => "expected `,` or `]`"
  | .object => "expected `,` or `\x7d`"

/-- The colon after the name of a member. -/
def colon : Inspection Unit := do
  match ← next with
  | some ':' =>
    let _ ← take
  | some _ => refuse "expected `:`"
  | none => refuse (endOf .object)

/-- Whether a container goes on with another item. A comma stands in front of it, unless it is the
first one. -/
def goesOn (c : Container) (first : Bool) : Inspection Bool := do
  match ← next with
  | none => refuse (endOf c)
  | some b =>
    if b = c.closing then return false
    else if !first && b != ',' then refuse (unseparated c)
    else
      let b ← if first then pure (some b) else do
        let _ ← take
        next
      match b with
      | none => refuse endOfValue
      | some b =>
        if b = c.closing then refuse "trailing comma"
        else if c = .object ∧ b ≠ '"' then refuse "key must be a string"
        else return true

/-- The closing bracket of an array from which no more items are wanted, or the closing brace of
an object. -/
def close (c : Container) : Inspection Unit := do
  match ← next with
  | none => refuse (endOf c)
  | some b =>
    if b = c.closing then discard take
    else if b = ',' then
      match c with
      | .object => refuse "trailing comma"
      | .array =>
        let _ ← take
        if (← next) = some ']' then refuse "trailing comma" else refuse "trailing characters"
    else refuse "trailing characters"

/-- The inside of a container, and its closing bracket. A fault of the inside comes first, but the
bracket is looked for all the same. -/
def inside (c : Container) (body : Inspection α) : Inspection α := do
  if (← get).depth ≤ 1 then refuse "recursion limit exceeded"
  else
    modify fun c => { c with depth := c.depth - 1 }
    let _ ← take
    let found ← observe body
    modify fun c => { c with depth := c.depth + 1 }
    let closed ← observe (close c)
    match found, closed with
    | .error fault, _ => throw fault
    | _, .error fault => throw fault
    | .ok x, .ok () => return x

/-! ## Values that do not count -/

/-- Where a value that does not count is left. -/
inductive Skip where
  /-- In front of a value. -/
  | value
  /-- Behind a value, or behind the opening bracket of a container. -/
  | item (first : Bool)

/-- The name of a member that does not count, and its colon. -/
def skipMember : Container → Inspection Unit
  | .array => return ()
  | .object => do
    match ← next with
    | some '"' =>
      let _ ← take
      skipText
      colon
    | some _ => refuse "key must be a string"
    | none => refuse (endOf .object)

/-- A value that is no container and does not count. -/
def skipScalar (b : Char) : Inspection Unit := do
  if b.isDigit then skipNumber
  else if b = 'n' ∨ b = 't' ∨ b = 'f' ∨ b = '-' ∨ b = '"' then
    let _ ← take
    if b = 'n' then word ['u', 'l', 'l']
    else if b = 't' then word ['r', 'u', 'e']
    else if b = 'f' then word ['a', 'l', 's', 'e']
    else if b = '-' then skipNumber
    else skipText
  else refuse "expected value"

/-- The rest of a value that does not count, inside of containers; `fuel` bounds its parts. -/
def skipRest : (fuel : Nat) → Skip → List Container → Inspection Unit
  | 0, _, _ => return ()
  | fuel + 1, .value, stack => do
    match ← next with
    | none => refuse endOfValue
    | some '[' =>
      let _ ← take
      skipRest fuel (.item true) (.array :: stack)
    | some '\x7b' =>
      let _ ← take
      skipRest fuel (.item true) (.object :: stack)
    | some b =>
      skipScalar b
      skipRest fuel (.item false) stack
  | _ + 1, .item _, [] => return ()
  | fuel + 1, .item first, c :: stack => do
    match ← next with
    | none => refuse (endOf c)
    | some b =>
      if b = c.closing then
        let _ ← take
        skipRest fuel (.item false) stack
      else if !first && b != ',' then refuse (unseparated c)
      else
        if !first then discard take
        skipMember c
        skipRest fuel .value (c :: stack)

/-- A value that does not count. -/
def skipValue : Inspection Unit := do skipRest (2 * (← get).size + 2) .value []

end Inspection

end CandyDrop.Json
