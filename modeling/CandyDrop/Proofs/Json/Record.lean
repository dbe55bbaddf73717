import CandyDrop.Json.Record

/-!
# Records that are written are read back

A record is written as the object of its fields. It is read back if each field is read back from
the value that is written for it (`record_written`, `bind_written`): `required_written`,
`defaulted_written` and `optional_written` are the kinds of fields, and a number, a finite double
and a list of such values are read back as well.
-/

namespace CandyDrop.Json

variable {α β : Type}

/-- The value of a JSON object with the fields of a record, read by name. -/
theorem fields?_object {names : List String} {members : List (String × Json)}
    (h : repeatsKnown names members = false) (fills : Bool) :
    (Json.object members).fields? names fills = some ⟨members, true⟩ := by
  rw [fields?, h]
  simp

/-- A record is read from the object of its fields. -/
theorem record_written {names : List String} {fills : Bool} {members : List (String × Json)}
    {build : Fields → Option α} {x : α} (honce : repeatsKnown names members = false)
    (hbuild : build ⟨members, true⟩ = some x) :
    (Json.object members).fields? names fills >>= build = some x := by
  rw [fields?_object honce]
  exact hbuild

/-- One field is read after another. -/
theorem bind_written {o : Option α} {f : α → Option β} {x : α} {y : β} (hx : o = some x)
    (hy : f x = some y) : o >>= f = some y := by
  rw [hx]
  exact hy

namespace Fields

variable {fs : Fields} {name : String} {read : Json → Option α} {j : Json} {x : α}

theorem required_written (hget : fs.get? name = some j) (hread : read j = some x) :
    fs.required name read = some x := by
  rw [required, hget]
  exact hread

theorem defaulted_written {value : α} (hget : fs.get? name = some j) (hread : read j = some x) :
    fs.defaulted name value read = some x := by
  rw [defaulted, hget]
  exact hread

theorem optional_of_null (h : fs.get? name = some .null) : fs.optional name read = some none := by
  rw [optional, h]

theorem optional_of_ne_null (h : fs.get? name = some j) (hne : j ≠ .null) :
    fs.optional name read = (read j).map some := by
  rw [optional, h]
  cases j with
  | null => exact absurd rfl hne
  | _ => rfl

/-- No value is written as `null` if none is read from it. -/
theorem optional_written {write : α → Json} {o : Option α}
    (hget : fs.get? name = some (ofOption write o))
    (hread : ∀ y ∈ o, read (write y) = some y) (hnull : read .null = none) :
    fs.optional name read = some o := by
  cases o with
  | none => exact optional_of_null hget
  | some y =>
    have hy : read (write y) = some y := hread y rfl
    have hne : write y ≠ .null := by
      intro heq
      rw [heq, hnull] at hy
      cases hy
    rw [optional_of_ne_null hget hne, ofOption, hy, Option.map_some]

theorem optional_text_written {o : Option String} (hget : fs.get? name = some (ofOption .text o)) :
    fs.optional name toText? = some o :=
  optional_written hget (fun _ _ => rfl) rfl

end Fields

/-! ## Values -/

theorem natCast_range {n size : Nat} (h : n < size) : (0 : Int) ≤ n ∧ (n : Int) < size :=
  ⟨Int.natCast_nonneg n, Int.ofNat_lt.2 h⟩

theorem toUInt8?_ofNat (n : UInt8) : toUInt8? (ofNat n.toNat) = some n := by
  rw [toUInt8?, ofNat, toInt?, Option.bind_some, if_pos (natCast_range n.toNat_lt),
    Int.toNat_natCast, UInt8.ofNat_toNat]

theorem toUInt16?_ofNat (n : UInt16) : toUInt16? (ofNat n.toNat) = some n := by
  rw [toUInt16?, ofNat, toInt?, Option.bind_some, if_pos (natCast_range n.toNat_lt),
    Int.toNat_natCast, UInt16.ofNat_toNat]

theorem toUInt64?_ofNat (n : UInt64) : toUInt64? (ofNat n.toNat) = some n := by
  rw [toUInt64?, ofNat, toInt?, Option.bind_some, if_pos (natCast_range n.toNat_lt),
    Int.toNat_natCast, UInt64.ofNat_toNat]

theorem toReal?_ofReal {x : Binary64} (h : x.isFinite = true) : toReal? (ofReal x) = some x := by
  rw [ofReal, if_pos h, toReal?]

theorem toList?_map {read : Json → Option α} {write : α → Json} (h : ∀ x, read (write x) = some x)
    (xs : List α) : toList? read (.array (xs.map write)) = some xs := by
  rw [toList?]
  induction xs with
  | nil => rfl
  | cons x xs ih => simp [h x, ih]

end CandyDrop.Json
