import CandyDrop.Address.Basic
import CandyDrop.Json.Inspection
import CandyDrop.Json.Printer

/-!
# Forms of values

What a text has to look like for a value of some type to be read from it, as the inspection of such
a text. A form says what is wrong with a text that is not of it, in the order of the text: the
first fault is the one that is told (`Form.reason`). It takes no part in reading; what a text means
is said where values are read.
-/

namespace CandyDrop.Json

/-- The inspection of one value, with the white space before it. -/
abbrev Form := Inspection Unit

namespace Form

open Inspection

/-- The first byte of a value, which is only looked at. -/
def first : Inspection Char := do
  match ← next with
  | some b => return b
  | none => refuse endOfValue

/-- A number in words. -/
def describe : Number → String
  | .integer i => "integer `" ++ Text.ofInt i ++ "`"
  | .real x => "floating point `" ++ x.render realStyle ++ "`"

/-- What value stands here, in words. -/
def found : Inspection String := do
  match ← look with
  | some 'n' =>
    let _ ← take
    word ['u', 'l', 'l']
    return "null"
  | some 't' =>
    let _ ← take
    word ['r', 'u', 'e']
    return "boolean `true`"
  | some 'f' =>
    let _ ← take
    word ['a', 'l', 's', 'e']
    return "boolean `false`"
  | some '-' =>
    let _ ← take
    return describe (← signedNumber true)
  | some '"' =>
    let _ ← take
    return "string " ++ Text.quoted (← quotedText)
  | some '[' => return "sequence"
  | some '\x7b' => return "map"
  | b =>
    if b.any Char.isDigit then return describe (← signedNumber false)
    else refuse "expected value"

/-- The fault of a value of another kind than the expected one. -/
def mismatch {α : Type} (expected : String) : Inspection α :=
  settle do complain ("invalid type: " ++ (← found) ++ ", expected " ++ expected)

/-- A text, which is given. -/
def string : Inspection String := do
  if (← first) = '"' then
    let _ ← take
    quotedText
  else mismatch "a string"

def anyText : Form := discard string

/-- A truth value. -/
def flag : Form := do
  match ← first with
  | 't' =>
    let _ ← take
    word ['r', 'u', 'e']
  | 'f' =>
    let _ ← take
    word ['a', 'l', 's', 'e']
  | _ => mismatch "a boolean"

/-- A number, which is given. -/
def numeral (expected : String) : Inspection Number := do
  let b ← first
  if b = '-' then
    let _ ← take
    signedNumber true
  else if b.isDigit then signedNumber false
  else mismatch expected

/-- A double. -/
def real : Form := discard (numeral "f64")

/-- An unsigned number of so many bits. -/
def natural (bits : Nat) : Form :=
  let expected := "u" ++ bits.repr
  settle do
    match ← numeral expected with
    | .integer i =>
      if 0 ≤ i ∧ i.toNat < 1 <<< bits then return ()
      else complain ("invalid value: " ++ describe (.integer i) ++ ", expected " ++ expected)
    | .real x => complain ("invalid type: " ++ describe (.real x) ++ ", expected " ++ expected)

/-- The text of an address. -/
def address : Form := do
  let s ← string
  if (Address.ofText? s).isSome then return ()
  else if Bytes.sizeOfText s ≤ Address.maxTextLength ∧ (Base58.decode? s).isNone then
    complain "Invalid Base58 string"
  else complain "String is the wrong size"

/-- A value of a form, or `null`. -/
def optional (form : Form) : Form := do
  match ← next with
  | some 'n' =>
    let _ ← take
    word ['u', 'l', 'l']
  | _ => form

/-! ## Containers -/

/-- Items of a form up to the closing bracket; `fuel` bounds their number. -/
def items (form : Form) : (fuel : Nat) → (first : Bool) → Inspection Unit
  | 0, _ => return ()
  | fuel + 1, first => do
    if ← goesOn .array first then
      form
      items form fuel false
    else return ()

/-- A list of values of a form. -/
def list (form : Form) : Form :=
  settle do
    if (← first) = '[' then inside .array (items form (← get).size true)
    else mismatch "a sequence"

/-- The name of a member. -/
def name : Inspection String := do
  let _ ← take
  quotedText

/-- Members of a form up to the closing brace; `fuel` bounds their number. -/
def members (form : Form) : (fuel : Nat) → (first : Bool) → Inspection Unit
  | 0, _ => return ()
  | fuel + 1, first => do
    if ← goesOn .object first then
      let _ ← name
      colon
      form
      members form fuel false
    else return ()

/-- An object whose members all are of one form. -/
def table (form : Form) : Form :=
  settle do
    if (← first) = '\x7b' then inside .object (members form (← get).size true)
    else mismatch "a map"

/-- Any value that is kept, with at most `depth` containers inside one another. -/
def anyKept : (depth : Nat) → Form
  | 0 => refuse "recursion limit exceeded"
  | depth + 1 =>
    settle do
      let b ← first
      let fuel := (← get).size
      if b = '[' then inside .array (items (anyKept depth) fuel true)
      else if b = '\x7b' then inside .object (members (anyKept depth) fuel true)
      else discard found

/-- Any value. -/
def any : Form := anyKept (maxDepth + 1)

/-! ## Records -/

/-- What it means that a field is left out. -/
inductive Presence where
  | required
  /-- It has a value then. -/
  | defaulted
  /-- It may only be left out of an object. -/
  | omissible
  deriving DecidableEq

/-- A field of a record. -/
structure Field where
  name : String
  presence : Presence
  form : Form

/-- A record by its name. `fills` tells whether everything that is left out is filled in. -/
structure Record where
  name : String
  fills : Bool
  fields : List Field

namespace Record

/-- The number of fields in words. -/
def extent (r : Record) : String :=
  "struct " ++ r.name ++ " with " ++ r.fields.length.repr
    ++ if r.fields.length = 1 then " element" else " elements"

/-- The fields from the one with number `i` on, one after another in an array. -/
def inOrder (r : Record) : (i : Nat) → List Field → Inspection Unit
  | _, [] => return ()
  | i, f :: fs => do
    if ← goesOn .array (i == 0) then f.form
    else if r.fills ∨ f.presence = .defaulted then pure ()
    else complain ("invalid length " ++ i.repr ++ ", expected " ++ r.extent)
    inOrder r (i + 1) fs

/-- The fields by their names in an object, where those in `seen` have been there; `fuel` bounds
the number of members. -/
def byName (r : Record) : (fuel : Nat) → (seen : List String) → (first : Bool) → Inspection Unit
  | 0, _, _ => return ()
  | fuel + 1, seen, first => do
    if ← goesOn .object first then
      let key ← Form.name
      match r.fields.find? fun f => f.name == key with
      | some f =>
        if seen.contains key then complain ("duplicate field `" ++ key ++ "`")
        else
          colon
          f.form
          byName r fuel (key :: seen) false
      | none =>
        colon
        skipValue
        byName r fuel seen false
    else
      match r.fields.find? fun f => f.presence = .required ∧ !seen.contains f.name with
      | some f => complain ("missing field `" ++ f.name ++ "`")
      | none => return ()

/-- The form of a record: its fields in order in an array, or by their names in an object. -/
def form (r : Record) : Form :=
  settle do
    match ← Form.first with
    | '[' => inside .array (r.inOrder 0 r.fields)
    | '\x7b' => inside .object (r.byName (← get).size [] true)
    | _ => mismatch ("struct " ++ r.name)

end Record

/-! ## Faults -/

/-- A text that is one value of a form, and white space around it. -/
def whole (form : Form) : Inspection Unit := do
  form
  if (← next).isSome then refuse "trailing characters" else return ()

/-- The first fault of a text that is not of a form. -/
def fault? (form : Form) (bs : Bytes) : Option Fault :=
  match (whole form (Cursor.start bs)).1 with
  | .ok () => none
  | .error fault => some fault

/-- Why a text is not of a form. -/
def reason (form : Form) (bs : Bytes) : String :=
  match fault? form bs with
  | some fault => fault.message
  | none => ""

end Form

end CandyDrop.Json
