import CandyDrop.Bytes
import CandyDrop.Text.Alphanumeric
import CandyDrop.Text.Blank

/-!
# Regular expressions

Which texts are regular expressions that a finite automaton over UTF-8 can look for: without
references back to groups, without looking around, and without boundaries of words, unless these are
those of ASCII words. A counted repetition or another form with a closing brace is not taken.

The letters in front of a group set modes for what follows in it. Only two of them change what is an
expression: `x`, in which white space and comments do not count, and `u`, which is on at the start;
without it the expression is about bytes, and nothing in it may stand for a part of a character.
-/

namespace CandyDrop.Text.RegularExpression

/-- How an expression is read. -/
structure Mode where
  /-- White space and comments do not count. -/
  loose : Bool
  /-- The expression is about characters and not about bytes. -/
  unicode : Bool

/-- Passes over white space and comments. -/
def skipLoose : (inComment : Bool) → List Char → List Char
  | _, [] => []
  | true, c :: cs => skipLoose (c != '\n') cs
  | false, c :: cs =>
    if isBlank c then skipLoose false cs else if c = '#' then skipLoose true cs else c :: cs

namespace Mode

/-- Passes over what does not count. -/
def skip (m : Mode) (cs : List Char) : List Char := if m.loose then skipLoose false cs else cs

/-- Whether a character can be looked for. -/
def admits (m : Mode) (c : Char) : Bool := m.unicode || c.toNat < 0x80

/-- The letters of modes. -/
def letters : List Char := ['i', 'm', 's', 'U', 'u', 'R', 'x']

/-- A mode after the letters that switch it on and off, the latter behind a hyphen; none may be
repeated, and a hyphen is not the last one. -/
def set? (m : Mode) (cs : List Char) : Option Mode :=
  let on := cs.takeWhile (· != '-')
  let off := cs.drop on.length
  if cs.all (fun c => c == '-' || letters.contains c) ∧ cs.eraseDups = cs ∧ off ≠ ['-'] then
    let switch (c : Char) (was : Bool) := on.contains c || (was && !off.contains c)
    some ⟨switch 'x' m.loose, switch 'u' m.unicode⟩
  else none

end Mode

/-! ## Escapes -/

/-- What one character or escape stands for. -/
inductive Item where
  | literal (c : Char)
  /-- Any character of a class. -/
  | kind
  /-- A place between characters. -/
  | place
  deriving DecidableEq

/-- A number of so many hexadecimal digits after `n`, and what follows it. -/
def hexNumber? (m : Mode) : (digits : Nat) → (n : Nat) → List Char → Option (Nat × List Char)
  | 0, n, cs => some (n, cs)
  | digits + 1, n, cs =>
    match m.skip cs with
    | [] => none
    | c :: cs => (Bytes.hexValue? c).bind fun d => hexNumber? m digits (16 * n + d) cs

/-- The character with a code point of so many hexadecimal digits. -/
def codePoint? (m : Mode) (digits : Nat) (cs : List Char) : Option (Item × List Char) := do
  let (n, cs) ← hexNumber? m digits 0 cs
  if n.isValidChar ∧ m.admits (Char.ofNat n) then some (.literal (Char.ofNat n), cs) else none

/-- The class of the characters of a general category, by its letter. -/
def category? (m : Mode) (cs : List Char) : Option (Item × List Char) :=
  match m.skip cs with
  | c :: cs =>
    if m.unicode ∧ ['c', 'l', 'm', 'n', 'p', 's', 'z'].contains c.toLower then some (.kind, cs)
    else none
  | [] => none

/-- The characters without a form of their own that a letter stands for. -/
def controls : List (Char × Char) :=
  [('a', '\x07'), ('f', '\x0C'), ('n', '\n'), ('r', '\r'), ('t', '\t'), ('v', '\x0B')]

/-- What an escape stands for, after its backslash. A character of ASCII that is no letter, digit or
angle bracket stands for itself. -/
def escape? (m : Mode) : List Char → Option (Item × List Char)
  | [] => none
  | c :: cs =>
    match controls.lookup c with
    | some d => some (.literal d, cs)
    | none =>
      if c = 'x' then codePoint? m 2 cs
      else if c = 'u' then codePoint? m 4 cs
      else if c = 'U' then codePoint? m 8 cs
      else if c = 'p' ∨ c = 'P' then category? m cs
      else if ['d', 's', 'w'].contains c then some (.kind, cs)
      else if ['D', 'S', 'W'].contains c then if m.unicode then some (.kind, cs) else none
      else if ['A', 'z'].contains c then some (.place, cs)
      else if ['b', 'B', '<', '>'].contains c then if m.unicode then none else some (.place, cs)
      else if c.toNat < 0x80 ∧ !c.isAlphanum then some (.literal c, cs)
      else none

/-! ## Classes in brackets -/

/-- One character or escape in brackets. -/
def classItem? (m : Mode) : List Char → Option (Item × List Char)
  | [] => none
  | '\\' :: cs => escape? m cs
  | c :: cs => if m.admits c then some (.literal c, cs) else none

/-- What follows a character, an escape or a range in brackets. A hyphen before a bracket or before
another hyphen makes no range. -/
def classRange? (m : Mode) (cs : List Char) : Option (List Char) := do
  let (first, cs) ← classItem? m cs
  let cs := m.skip cs
  let alone := if first = .place then none else some cs
  match cs with
  | '-' :: rest =>
    match m.skip rest with
    | '-' :: _ | ']' :: _ => alone
    | rest =>
      let (last, rest) ← classItem? m rest
      match first, last with
      | .literal a, .literal b => if a ≤ b then some rest else none
      | _, _ => none
  | _ => alone

/-- The names of classes that are written between colons. -/
def classNames : List String :=
  ["alnum", "alpha", "ascii", "blank", "cntrl", "digit", "graph", "lower", "print", "punct",
   "space", "upper", "word", "xdigit"]

/-- A class by its name, after the bracket: whether it is negated, and what follows it. -/
def namedClass? : List Char → Option (Bool × List Char)
  | ':' :: cs =>
    let negated := cs.head? = some '^'
    let cs := if negated then cs.drop 1 else cs
    let name := cs.takeWhile (· != ':')
    match cs.drop name.length with
    | ':' :: ']' :: rest =>
      if classNames.contains (String.ofList name) then some (negated, rest) else none
    | _ => none
  | _ => none

/-- What follows the start of a class: a caret, hyphens, or a bracket that stands for itself. -/
def classStart? (m : Mode) (cs : List Char) : Option (List Char) :=
  let cs := m.skip cs
  let negated := cs.head? = some '^'
  if negated ∧ !m.unicode then none
  else
    let cs := if negated then m.skip (cs.drop 1) else cs
    match cs with
    | ']' :: cs => some cs
    | cs => some (cs.dropWhile (· == '-'))

/-- What follows a class in brackets, in which `depth` more classes are open. `fuel` bounds the
number of its members. -/
def classEnd? (m : Mode) : (fuel : Nat) → (depth : Nat) → List Char → Option (List Char)
  | 0, _, _ => none
  | fuel + 1, depth, cs =>
    match m.skip cs with
    | [] => none
    | ']' :: cs =>
      match depth with
      | 0 => some cs
      | depth + 1 => classEnd? m fuel depth cs
    | '[' :: cs =>
      match namedClass? cs with
      | some (negated, rest) =>
        if negated ∧ !m.unicode then none else classEnd? m fuel depth rest
      | none => (classStart? m cs).bind (classEnd? m fuel (depth + 1))
    | '&' :: '&' :: cs | '-' :: '-' :: cs | '~' :: '~' :: cs => classEnd? m fuel depth cs
    | cs => (classRange? m cs).bind (classEnd? m fuel depth)

/-- What follows a class, after its bracket. -/
def classRest? (m : Mode) (cs : List Char) : Option (List Char) :=
  (classStart? m cs).bind fun rest => classEnd? m (rest.length + 1) 0 rest

/-! ## Groups -/

/-- How far an expression is read. -/
structure Reading where
  mode : Mode
  /-- The modes outside of the open groups, the innermost first. -/
  outer : List Mode
  /-- The names of the groups so far. -/
  names : List (List Char)
  /-- What stands before can be repeated. -/
  repeatable : Bool

namespace Reading

/-- The start of an expression. -/
def start : Reading := ⟨⟨false, true⟩, [], [], false⟩

/-- After something that can be repeated. -/
def past (r : Reading) : Reading := { r with repeatable := true }

/-- In a new group. -/
def inside (r : Reading) (mode : Mode) : Reading :=
  { r with mode, outer := r.mode :: r.outer, repeatable := false }

/-- A name starts with a letter or a low line; after that there may be numbers, dots and brackets. -/
def isName : List Char → Bool
  | [] => false
  | c :: cs =>
    (c == '_' || isLetter c)
      && cs.all fun c => isAlphanumeric c || ['_', '.', '[', ']'].contains c

/-- A group with a name, after the angle bracket. -/
def named? (r : Reading) (cs : List Char) : Option (Reading × List Char) :=
  let name := cs.takeWhile (· != '>')
  match cs.drop name.length with
  | '>' :: rest =>
    if isName name ∧ !r.names.contains name then
      some ({ r.inside r.mode with names := name :: r.names }, rest)
    else none
  | _ => none

/-- The letters of modes, after the question mark, and the group that a colon opens. -/
def switched? (r : Reading) (cs : List Char) : Option (Reading × List Char) :=
  let letters := cs.takeWhile fun c => c != ':' && c != ')'
  (r.mode.set? letters).bind fun mode =>
    match cs.drop letters.length with
    | ':' :: rest => some (r.inside mode, rest)
    | ')' :: rest =>
      if letters.isEmpty then none else some ({ r with mode, repeatable := false }, rest)
    | _ => none

/-- What a parenthesis opens. -/
def group? (r : Reading) (cs : List Char) : Option (Reading × List Char) :=
  match r.mode.skip cs with
  | '?' :: 'P' :: '<' :: cs => r.named? cs
  | '?' :: '<' :: cs => r.named? cs
  | '?' :: cs => r.switched? cs
  | cs => some (r.inside r.mode, cs)

/-- Reads one piece of an expression. -/
def step? (r : Reading) : List Char → Option (Reading × List Char)
  | [] => none
  | '(' :: cs => r.group? cs
  | ')' :: cs =>
    match r.outer with
    | [] => none
    | mode :: outer => some ({ r with mode, outer, repeatable := true }, cs)
  | '|' :: cs => some ({ r with repeatable := false }, cs)
  | '[' :: cs => (classRest? r.mode cs).map (r.past, ·)
  | '\\' :: cs => (escape? r.mode cs).map fun (_, rest) => (r.past, rest)
  | '.' :: cs => if r.mode.unicode then some (r.past, cs) else none
  | '{' :: _ => none
  | c :: cs =>
    if ['?', '*', '+'].contains c then
      if r.repeatable then some (r, if cs.head? = some '?' then cs.drop 1 else cs) else none
    else if r.mode.admits c then some (r.past, cs)
    else none

/-- Whether the rest of an expression can be read; `fuel` bounds the number of its pieces. -/
def endsWell : (fuel : Nat) → Reading → List Char → Bool
  | 0, _, _ => false
  | fuel + 1, r, cs =>
    match r.mode.skip cs with
    | [] => r.outer.isEmpty
    | cs =>
      match r.step? cs with
      | some (r, rest) => endsWell fuel r rest
      | none => false

end Reading

end RegularExpression

/-- Whether a text is a regular expression. -/
def isRegularExpression (cs : List Char) : Bool :=
  RegularExpression.Reading.endsWell (cs.length + 1) .start cs

end CandyDrop.Text
