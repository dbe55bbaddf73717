import CandyDrop.Json.Basic
import CandyDrop.Text.Integer

/-!
# Records in JSON

A record is written as an object, or as an array of its fields in order. Of an object the fields
count that the record knows, each at most once; members of other names are ignored. An array may
end early but not hold more than the fields.

A field is `required`, has a value when it is left out (`defaulted`), or may be absent
(`optional`). An absent field of an array is only accepted where the record fills in everything
that is left out; in an object it may be left out or `null`.
-/

namespace CandyDrop.Json

/-- The fields of a record as they were written. -/
structure Fields where
  /-- The fields that are there, by name. -/
  members : List (String × Json)
  /-- Whether an optional field may be left out. -/
  mayOmit : Bool

/-- Whether a known name stands twice in a list of members. -/
def repeatsKnown (names : List String) (ms : List (String × Json)) : Bool :=
  names.any fun name => 1 < (ms.filter fun m => m.1 == name).length

/-- The fields of a record with these names. `fills` tells whether the record fills in whatever an
array leaves out. -/
def fields? (names : List String) (fills : Bool) : Json → Option Fields
  | .object ms => if repeatsKnown names ms then none else some ⟨ms, true⟩
  | .array vs => if names.length < vs.length then none else some ⟨names.zip vs, fills⟩
  | _ => none

namespace Fields

variable {α : Type}

/-- The value written for a field. -/
def get? (fs : Fields) (name : String) : Option Json := fs.members.lookup name

/-- A field that has to be there. -/
def required (fs : Fields) (name : String) (read : Json → Option α) : Option α :=
  (fs.get? name).bind read

/-- A field with a value for when it is left out. -/
def defaulted (fs : Fields) (name : String) (value : α) (read : Json → Option α) : Option α :=
  match fs.get? name with
  | none => some value
  | some j => read j

/-- A field that may be `null` or left out. -/
def optional (fs : Fields) (name : String) (read : Json → Option α) : Option (Option α) :=
  match fs.get? name with
  | none => if fs.mayOmit then some none else none
  | some .null => some none
  | some j => (read j).map some

end Fields

/-- A truth value. -/
def toBool? : Json → Option Bool
  | .bool b => some b
  | _ => none

/-- A text. -/
def toText? : Json → Option String
  | .text s => some s
  | _ => none

/-- An integer. -/
def toInt? : Json → Option Int
  | .number (.integer i) => some i
  | _ => none

/-- A number of 8 bits. -/
def toUInt8? (j : Json) : Option UInt8 :=
  j.toInt?.bind fun i => if 0 ≤ i ∧ i < UInt8.size then some (UInt8.ofNat i.toNat) else none

/-- A number of 16 bits. -/
def toUInt16? (j : Json) : Option UInt16 :=
  j.toInt?.bind fun i => if 0 ≤ i ∧ i < UInt16.size then some (UInt16.ofNat i.toNat) else none

/-- A number of 64 bits. -/
def toUInt64? (j : Json) : Option UInt64 :=
  j.toInt?.bind fun i => if 0 ≤ i ∧ i < UInt64.size then some (UInt64.ofNat i.toNat) else none

/-- A double; an integer is converted. -/
def toReal? : Json → Option Binary64
  | .number (.integer i) => some (Binary64.ofInt i)
  | .number (.real x) => some x
  | _ => none

/-- A list of values. -/
def toList? {α : Type} (read : Json → Option α) : Json → Option (List α)
  | .array vs => vs.mapM read
  | _ => none

/-- The value of an optional field, `null` for none. -/
def ofOption {α : Type} (write : α → Json) : Option α → Json
  | none => .null
  | some x => write x

/-- An unsigned number. -/
def ofNat (n : Nat) : Json := .number (.integer n)

/-- A double; one that is not finite has no number. -/
def ofReal (x : Binary64) : Json := if x.isFinite then .number (.real x) else .null

end CandyDrop.Json
