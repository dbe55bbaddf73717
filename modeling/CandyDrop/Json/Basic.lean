import CandyDrop.Binary64.Basic

/-!
# JSON values

A JSON value as a tree. Members of an object stay in the order in which they were written, also
repeated ones. A number is an integer of 64 bits if it was written as one, and a double otherwise.

A text may hold pieces that are well formed and still have no value: a string with a lone
surrogate or with bytes that are no characters, a number beyond the doubles, a value nested too
deep. They are `unreadable`; where nobody asks for the value they do no harm. `keep?` is the value
of a tree that is to be kept whole: nothing in it is unreadable, and its objects have their
members in ascending order, the last of repeated ones (`isKept_of_keep?`).
-/

namespace CandyDrop

/-- A number, by the way it was written. -/
inductive Json.Number where
  /-- Without fraction and exponent, within 64 bits. -/
  | integer (i : Int)
  | real (x : Binary64)
  deriving DecidableEq

/-- A JSON value. -/
inductive Json where
  | null
  | bool (b : Bool)
  | number (n : Json.Number)
  | text (s : String)
  | array (items : List Json)
  | object (members : List (String × Json))
  /-- A well formed piece of text that has no value. -/
  | unreadable

instance : Inhabited Json := ⟨.null⟩

namespace Json

/-- Whether a number has a value: an integer within 64 bits, signed or not, or a finite double. -/
def Number.isKept : Number → Bool
  | .integer i => decide (-0x8000000000000000 ≤ i ∧ i < UInt64.size)
  | .real x => x.isFinite

/-- Puts a member in its place, unless one of its name is already there. -/
def insertMember (k : String) (v : Json) : List (String × Json) → List (String × Json)
  | [] => [(k, v)]
  | (a, b) :: ms =>
    if k < a then (k, v) :: (a, b) :: ms
    else if k = a then (a, b) :: ms
    else (a, b) :: insertMember k v ms

mutual

/-- The value to keep, if all of it has a value. -/
def keep? : Json → Option Json
  | .null => some .null
  | .bool b => some (.bool b)
  | .number n => if n.isKept then some (.number n) else none
  | .text s => some (.text s)
  | .array items => (keepItems? items).map .array
  | .object members => (keepMembers? members).map .object
  | .unreadable => none

/-- The values to keep of a list. -/
def keepItems? : List Json → Option (List Json)
  | [] => some []
  | v :: vs => do
    let v ← keep? v
    let vs ← keepItems? vs
    pure (v :: vs)

/-- The members to keep in ascending order; the last of a name wins. -/
def keepMembers? : List (String × Json) → Option (List (String × Json))
  | [] => some []
  | (k, v) :: ms => do
    let v ← keep? v
    let ms ← keepMembers? ms
    pure (insertMember k v ms)

end

/-- Whether a name comes before all members of a list. -/
def precedes (k : String) (ms : List (String × Json)) : Bool := ms.all fun m => decide (k < m.1)

mutual

/-- Whether a tree is in the form in which values are kept. -/
def isKept : Json → Bool
  | .null => true
  | .bool _ => true
  | .number n => n.isKept
  | .text _ => true
  | .array items => itemsKept items
  | .object members => membersKept members
  | .unreadable => false

def itemsKept : List Json → Bool
  | [] => true
  | v :: vs => isKept v && itemsKept vs

def membersKept : List (String × Json) → Bool
  | [] => true
  | (k, v) :: ms => isKept v && precedes k ms && membersKept ms

end

theorem precedes_insertMember {j k : String} {v : Json} {ms : List (String × Json)} (hk : j < k)
    (h : precedes j ms = true) : precedes j (insertMember k v ms) = true := by
  induction ms with
  | nil => simpa [insertMember, precedes] using hk
  | cons m ms ih =>
    obtain ⟨a, b⟩ := m
    simp only [precedes, List.all_cons, Bool.and_eq_true, decide_eq_true_eq] at h ih
    simp only [insertMember, precedes]
    split
    · simp only [List.all_cons, Bool.and_eq_true, decide_eq_true_eq]; exact ⟨hk, h.1, h.2⟩
    · split
      · simp only [List.all_cons, Bool.and_eq_true, decide_eq_true_eq]; exact h
      · simp only [List.all_cons, Bool.and_eq_true, decide_eq_true_eq]; exact ⟨h.1, ih h.2⟩

theorem precedes_of_lt {j k : String} {ms : List (String × Json)} (hk : j < k)
    (h : precedes k ms = true) : precedes j ms = true := by
  simp only [precedes, List.all_eq_true, decide_eq_true_eq] at h ⊢
  exact fun m hm => String.lt_trans hk (h m hm)

theorem membersKept_insertMember {k : String} {v : Json} {ms : List (String × Json)}
    (hv : isKept v = true) (h : membersKept ms = true) :
    membersKept (insertMember k v ms) = true := by
  induction ms with
  | nil => simp [insertMember, membersKept, hv, precedes]
  | cons m ms ih =>
    obtain ⟨a, b⟩ := m
    have h' := h
    simp only [membersKept, Bool.and_eq_true] at h'
    obtain ⟨⟨hb, ha⟩, hms⟩ := h'
    rw [insertMember]
    split
    · next hlt =>
      rw [membersKept, hv, h]
      have : precedes k ((a, b) :: ms) = true := by
        rw [precedes, List.all_cons]
        simp only [hlt, decide_true, Bool.true_and]
        exact precedes_of_lt hlt ha
      simp [this]
    · next hnlt =>
      split
      · exact h
      · next hne =>
        have hlt : a < k := by
          have hle : a ≤ k := hnlt
          rcases Decidable.em (a < k) with hlt | hge
          · exact hlt
          · exact absurd (String.le_antisymm (hge : k ≤ a) hle) hne
        rw [membersKept, hb, ih hms]
        simp [precedes_insertMember hlt ha]

mutual

theorem isKept_of_keep? {j v : Json} (h : keep? j = some v) : isKept v = true := by
  cases j with
  | null => cases h; rfl
  | bool b => cases h; rfl
  | number n =>
    rw [keep?] at h
    split at h
    · next hn => cases h; exact hn
    · cases h
  | text s => cases h; rfl
  | array items =>
    obtain ⟨vs, hvs, rfl⟩ := Option.map_eq_some_iff.1 h
    exact itemsKept_of_keepItems? hvs
  | object members =>
    obtain ⟨ms, hms, rfl⟩ := Option.map_eq_some_iff.1 h
    exact membersKept_of_keepMembers? hms
  | unreadable => cases h

theorem itemsKept_of_keepItems? {js vs : List Json} (h : keepItems? js = some vs) :
    itemsKept vs = true := by
  cases js with
  | nil => cases h; rfl
  | cons j js =>
    simp only [keepItems?, Option.bind_eq_bind, Option.pure_def, Option.bind_eq_some_iff] at h
    obtain ⟨v, hv, us, hus, h⟩ := h
    cases h
    rw [itemsKept, isKept_of_keep? hv, itemsKept_of_keepItems? hus, Bool.and_self]

theorem membersKept_of_keepMembers? {js vs : List (String × Json)}
    (h : keepMembers? js = some vs) : membersKept vs = true := by
  match js with
  | [] => cases h; rfl
  | (k, j) :: js =>
    simp only [keepMembers?, Option.bind_eq_bind, Option.pure_def, Option.bind_eq_some_iff] at h
    obtain ⟨v, hv, us, hus, h⟩ := h
    cases h
    exact membersKept_insertMember (isKept_of_keep? hv) (membersKept_of_keepMembers? hus)

end

end Json

end CandyDrop
