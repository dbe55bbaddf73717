import CandyDrop.Json.Number
import CandyDrop.Text.Utf8

/-!
# Reading JSON

The text of a value is one value with white space around it: space, tab, line feed and carriage
return. There is no limit to how deep values nest, but a container inside 127 others is
unreadable: it is only checked for its form. Strings hold no raw control character; what an escape
means is settled when the whole string is known, and a string that spells no text is unreadable.
-/

namespace CandyDrop.Json

open Utf8 (Symbol)

/-- What is left to read. -/
abbrev Input := List Symbol

/-- White space between the parts of a value. -/
def isSpace : Symbol → Bool
  | some c => c == ' ' || c == '\t' || c == '\n' || c == '\r'
  | none => false

/-- The input after white space. -/
def skipSpace (s : Input) : Input := s.dropWhile isSpace

/-- A part of a written string. -/
inductive Piece where
  | char (c : Char)
  /-- A byte that starts no character. -/
  | gap
  /-- An escape with four hexadecimal digits. -/
  | unit (n : Nat)

/-- The character that a one-letter escape stands for. -/
def escaped? : Char → Option Char
  | '"' => some '"'
  | '\\' => some '\\'
  | '/' => some '/'
  | 'b' => some '\x08'
  | 'f' => some '\x0c'
  | 'n' => some '\n'
  | 'r' => some '\r'
  | 't' => some '\t'
  | _ => none

/-- The number that four hexadecimal digits spell. -/
def hexUnit? (a b c d : Symbol) : Option Nat := do
  let a ← a.bind Bytes.hexValue?
  let b ← b.bind Bytes.hexValue?
  let c ← c.bind Bytes.hexValue?
  let d ← d.bind Bytes.hexValue?
  pure (4096 * a + 256 * b + 16 * c + d)

/-- Puts a piece in front of those that were read after it. -/
def consPiece (p : Piece) (rest : Option (List Piece × Input)) : Option (List Piece × Input) :=
  rest.map fun (ps, s) => (p :: ps, s)

/-- Reads the pieces of a string up to its closing quote. -/
def readPieces : Input → Option (List Piece × Input)
  | [] => none
  | some '"' :: s => some ([], s)
  | some '\\' :: some 'u' :: a :: b :: c :: d :: s =>
    (hexUnit? a b c d).bind fun n => consPiece (.unit n) (readPieces s)
  | some '\\' :: some e :: s => (escaped? e).bind fun c => consPiece (.char c) (readPieces s)
  | some '\\' :: _ => none
  | none :: s => consPiece .gap (readPieces s)
  | some c :: s => if c < ' ' then none else consPiece (.char c) (readPieces s)

/-- The character of two units of UTF-16, the first of them a leading surrogate. -/
def pairChar? (lead trail : Nat) : Option Char :=
  if 0xDC00 ≤ trail ∧ trail ≤ 0xDFFF then
    some (Char.ofNat (0x10000 + (lead - 0xD800) * 0x400 + (trail - 0xDC00)))
  else none

/-- The text that pieces spell. -/
def spell? : List Piece → Option (List Char)
  | [] => some []
  | .char c :: ps => (spell? ps).map (c :: ·)
  | .gap :: _ => none
  | .unit n :: .unit m :: ps =>
    if 0xD800 ≤ n ∧ n ≤ 0xDBFF then
      (pairChar? n m).bind fun c => (spell? ps).map (c :: ·)
    else if 0xDC00 ≤ n ∧ n ≤ 0xDFFF then none
    else (spell? (.unit m :: ps)).map (Char.ofNat n :: ·)
  | .unit n :: ps =>
    if 0xD800 ≤ n ∧ n ≤ 0xDFFF then none else (spell? ps).map (Char.ofNat n :: ·)

/-- Reads a string after its opening quote; `none` inside if it spells no text. -/
def readText (s : Input) : Option (Option String × Input) :=
  (readPieces s).map fun (ps, rest) => ((spell? ps).map String.ofList, rest)

/-- Cuts the decimal digits off the front. -/
def readDigits : Input → List Char × Input
  | some c :: s =>
    if c.isDigit then
      let (cs, rest) := readDigits s
      (c :: cs, rest)
    else ([], some c :: s)
  | s => ([], s)

/-- Reads the fraction of a number, if there is one; a point needs a digit after it. -/
def readFraction : Input → Option (Option (List Char) × Input)
  | some '.' :: s =>
    match readDigits s with
    | ([], _) => none
    | (ds, rest) => some (some ds, rest)
  | s => some (none, s)

/-- Reads the sign and the digits of an exponent, at least one. -/
def readExponentDigits (negative : Bool) (s : Input) : Option (Option (Bool × List Char) × Input) :=
  match readDigits s with
  | ([], _) => none
  | (ds, rest) => some (some (negative, ds), rest)

/-- Reads the exponent of a number, if there is one. -/
def readExponent : Input → Option (Option (Bool × List Char) × Input)
  | some c :: s =>
    if c == 'e' || c == 'E' then
      match s with
      | some '-' :: s => readExponentDigits true s
      | some '+' :: s => readExponentDigits false s
      | s => readExponentDigits false s
    else some (none, some c :: s)
  | s => some (none, s)

/-- Reads an unsigned number. Only zero itself starts with a zero. -/
def readUnsigned (negative : Bool) (s : Input) : Option (Lexeme × Input) := do
  let (whole, s) := readDigits s
  if whole.isEmpty || (whole.head? == some '0' && 1 < whole.length) then none
  else
    let (fraction, s) ← readFraction s
    let (exponent, s) ← readExponent s
    pure (⟨negative, whole, fraction, exponent⟩, s)

/-- Reads a number. -/
def readNumber : Input → Option (Lexeme × Input)
  | some '-' :: s => readUnsigned true s
  | s => readUnsigned false s

/-- The value of a lexeme, or of one that has none. -/
def ofLexeme (l : Lexeme) : Json :=
  match l.number? with
  | some n => .number n
  | none => .unreadable

/-- Reads a word at the front of the input. -/
def readWord (word : List Char) (v : Json) (s : Input) : Option (Json × Input) :=
  if s.take word.length = word.map some then some (v, s.drop word.length) else none

/-- Reads a value that is no container, without white space before it. -/
def readScalar : Input → Option (Json × Input)
  | some 'n' :: s => readWord ['u', 'l', 'l'] .null s
  | some 't' :: s => readWord ['r', 'u', 'e'] (.bool true) s
  | some 'f' :: s => readWord ['a', 'l', 's', 'e'] (.bool false) s
  | some '"' :: s =>
    (readText s).map fun (t, rest) => (match t with | some t => .text t | none => .unreadable, rest)
  | s => (readNumber s).map fun (l, rest) => (ofLexeme l, rest)

/-- Reads the name of a member and the colon after it. -/
def readName (s : Input) : Option (Option String × Input) :=
  match skipSpace s with
  | some '"' :: s => do
    let (name, s) ← readText s
    match skipSpace s with
    | some ':' :: s => pure (name, s)
    | _ => none
  | _ => none

/-- The two kinds of containers. -/
inductive Container where
  | array
  | object
  deriving DecidableEq

/-- The bracket that closes a container. -/
def Container.closing : Container → Char
  | array => ']'
  | object => '}'

/-- Reads what stands before the value of an item: the name in an object. -/
def skipName : Container → Input → Option Input
  | .array, s => some s
  | .object, s => (readName s).map (·.2)

/-- Checks the form of what is left of a value and gives the input after it. `atValue` tells
whether a value comes next or has just ended, and `stack` holds the containers still open. Every
step takes a symbol, so that as much fuel as there are symbols is enough. -/
def skipOpen : (fuel : Nat) → (atValue : Bool) → (stack : List Container) → Input → Option Input
  | _, false, [], s => some s
  | 0, _, _, _ => none
  | fuel + 1, false, c :: stack, s =>
    match skipSpace s with
    | some ',' :: s => (skipName c s).bind (skipOpen fuel true (c :: stack))
    | some b :: s => if b = c.closing then skipOpen fuel false stack s else none
    | _ => none
  | fuel + 1, true, stack, s =>
    match skipSpace s with
    | some '[' :: s => skipInside fuel .array stack s
    | some '{' :: s => skipInside fuel .object stack s
    | s => (readScalar s).bind fun (_, s) => skipOpen fuel false stack s
where
  /-- The same after the opening bracket of a container. -/
  skipInside (fuel : Nat) (c : Container) (stack : List Container) (s : Input) : Option Input :=
    match skipSpace s with
    | some b :: r =>
      if b = c.closing then skipOpen fuel false stack r
      else (skipName c s).bind (skipOpen fuel true (c :: stack))
    | _ => none

/-- Reads items up to the closing bracket, at least one, with a comma between two. As much fuel
as there are symbols is enough. -/
def readItems {α : Type} (item : Input → Option (α × Input)) (closing : Char) :
    (fuel : Nat) → Input → Option (List α × Input)
  | 0, _ => none
  | fuel + 1, s => do
    let (x, s) ← item s
    match skipSpace s with
    | some b :: s =>
      if b = ',' then
        let (xs, s) ← readItems item closing fuel s
        pure (x :: xs, s)
      else if b = closing then pure ([x], s)
      else none
    | _ => none

/-- Reads the items of a container after its opening bracket. -/
def readContainer {α : Type} (item : Input → Option (α × Input)) (closing : Char) (s : Input) :
    Option (List α × Input) :=
  match skipSpace s with
  | [] => none
  | b :: r => if b = some closing then some ([], r) else readItems item closing s.length s

/-- Reads a member of an object; `none` inside if its name spells no text. -/
def readMember (value : Input → Option (Json × Input)) (s : Input) :
    Option (Option (String × Json) × Input) := do
  let (name, s) ← readName s
  let (v, s) ← value s
  pure (name.map fun name => (name, v), s)

/-- The object of some members, if all their names spell texts. -/
def ofMembers (members : List (Option (String × Json))) : Json :=
  match members.mapM id with
  | some ms => .object ms
  | none => .unreadable

/-- Reads a value with at most `depth` containers inside one another; what is deeper is
unreadable. -/
def readValue : (depth : Nat) → Input → Option (Json × Input)
  | 0, s =>
    match skipSpace s with
    | some '[' :: r => (skipOpen (r.length + 2) true [] (some '[' :: r)).map (.unreadable, ·)
    | some '{' :: r => (skipOpen (r.length + 2) true [] (some '{' :: r)).map (.unreadable, ·)
    | s => readScalar s
  | depth + 1, s =>
    match skipSpace s with
    | some '[' :: r =>
      (readContainer (readValue depth) ']' r).map fun (vs, rest) => (.array vs, rest)
    | some '{' :: r =>
      (readContainer (readMember (readValue depth)) '}' r).map fun (ms, rest) =>
        (ofMembers ms, rest)
    | s => readScalar s

/-- How many containers may stand inside one another in a value that is kept. -/
def maxDepth : Nat := 127

/-- The value that a whole input spells. -/
def ofInput? (s : Input) : Option Json := do
  let (v, s) ← readValue maxDepth s
  if (skipSpace s).isEmpty then some v else none

/-- The value that a byte string spells. -/
def ofBytes? (bs : Bytes) : Option Json := ofInput? (Utf8.decode bs)

end CandyDrop.Json
