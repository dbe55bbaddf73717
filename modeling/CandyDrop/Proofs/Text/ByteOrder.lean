import CandyDrop.Text.Utf8
import Mathlib.Data.List.Basic

/-!
# The order of texts is the order of their bytes

Texts are compared character by character, and so are the keys of a table; a file is sorted by the
bytes of its keys. Both orders are the same, because UTF-8 was made so that they are: a character
with a greater number has a greater form, and no form is the beginning of another one
(`encode_append_lt`). Hence `ofText_lt_ofText_iff`.
-/

namespace CandyDrop.Bytes

variable {m n : Nat}

/-! ## Numbers by their digits -/

/-- The upper digits decide, and if they are the same the last one. -/
theorem div_lt_or_mod_lt (b : Nat) (h : m < n) :
    m / b < n / b ∨ m / b = n / b ∧ m % b < n % b := by
  rcases Nat.lt_or_eq_of_le (Nat.div_le_div_right (c := b) (Nat.le_of_lt h)) with hdiv | hdiv
  · exact .inl hdiv
  · refine .inr ⟨hdiv, ?_⟩
    have hm := Nat.div_add_mod m b
    have hn := Nat.div_add_mod n b
    rw [hdiv] at hm
    omega

/-- The order of numbers by the four digits to the base 64 that the bytes of a character hold. -/
theorem digits_lt (h : m < n) :
    m / 262144 < n / 262144 ∨ m / 262144 = n / 262144 ∧
      (m / 4096 % 64 < n / 4096 % 64 ∨ m / 4096 % 64 = n / 4096 % 64 ∧
        (m / 64 % 64 < n / 64 % 64 ∨ m / 64 % 64 = n / 64 % 64 ∧ m % 64 < n % 64)) := by
  have hlast := div_lt_or_mod_lt 64 h
  have hthird := fun h => div_lt_or_mod_lt (m := m / 64) (n := n / 64) 64 h
  have hsecond := fun h => div_lt_or_mod_lt (m := m / 4096) (n := n / 4096) 64 h
  simp only [Nat.div_div_eq_div_mul, Nat.reduceMul] at hthird hsecond
  omega

theorem ofNat_lt_ofNat_iff (hm : m < 256) (hn : n < 256) :
    UInt8.ofNat m < UInt8.ofNat n ↔ m < n := by
  rw [UInt8.lt_iff_toNat_lt, UInt8.toNat_ofNat', UInt8.toNat_ofNat', Nat.mod_eq_of_lt hm,
    Nat.mod_eq_of_lt hn]

theorem ofNat_eq_ofNat_iff (hm : m < 256) (hn : n < 256) :
    UInt8.ofNat m = UInt8.ofNat n ↔ m = n := by
  rw [← UInt8.toNat_inj, UInt8.toNat_ofNat', UInt8.toNat_ofNat', Nat.mod_eq_of_lt hm,
    Nat.mod_eq_of_lt hn]

/-! ## Characters and texts -/

/-- Whatever follows, the form of a character comes before that of a greater one. -/
theorem encode_append_lt {c d : Char} (h : c < d) (bs cs : Bytes) :
    String.utf8EncodeChar c ++ bs < String.utf8EncodeChar d ++ cs := by
  have hlt : c.val.toNat < d.val.toNat := h
  have hvalid : d.val.toNat < 0x110000 := by
    have hd := d.valid
    simp only [UInt32.isValidChar, Nat.isValidChar] at hd
    omega
  have hdigits := digits_lt hlt
  simp only [String.utf8EncodeChar]
  generalize c.val.toNat = m at *
  generalize d.val.toNat = n at *
  -- A longer form starts with a greater byte, and forms of the same length hold the digits.
  split_ifs
  all_goals
    simp (disch := omega) only [List.cons_append, List.nil_append, List.cons_lt_cons_iff,
      ofNat_lt_ofNat_iff, ofNat_eq_ofNat_iff, Nat.mod_eq_of_lt (a := _ / 262144)]
    omega

theorem flatMap_encode_lt {cs ds : List Char} (h : cs < ds) :
    cs.flatMap String.utf8EncodeChar < ds.flatMap String.utf8EncodeChar := by
  induction h with
  | nil =>
    obtain ⟨b, bs, h⟩ := List.exists_cons_of_ne_nil (String.utf8EncodeChar_ne_nil (c := _))
    rw [List.flatMap_nil, List.flatMap_cons, h]
    exact .nil
  | rel h =>
    rw [List.flatMap_cons, List.flatMap_cons]
    exact encode_append_lt h _ _
  | cons _ ih =>
    rw [List.flatMap_cons, List.flatMap_cons]
    exact List.append_left_lt ih

theorem ofText_lt_ofText {a b : String} (h : a < b) : ofText a < ofText b := by
  rw [Utf8.ofText_eq_flatMap, Utf8.ofText_eq_flatMap]
  exact flatMap_encode_lt (String.lt_iff.1 h)

/-- **The order of texts is the order of their bytes.** -/
theorem ofText_lt_ofText_iff {a b : String} : ofText a < ofText b ↔ a < b := by
  refine ⟨fun h => ?_, ofText_lt_ofText⟩
  by_contra hnot
  rcases Std.le_iff_lt_or_eq.1 (String.not_lt.1 hnot) with hlt | rfl
  · exact List.lt_asymm h (ofText_lt_ofText hlt)
  · exact List.lt_irrefl _ h

end CandyDrop.Bytes
