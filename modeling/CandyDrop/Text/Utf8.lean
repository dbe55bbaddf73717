import CandyDrop.Bytes

/-!
# Characters of a byte string

A byte string is cut into the characters whose UTF-8 form it holds. A byte that starts no
character is kept as a gap, so that text around it can still be read: an ASCII byte always stands
for itself, and a piece is text exactly if it has no gap. The form of a text is cut into the
characters of that text (`decode_ofText`).
-/

namespace CandyDrop.Utf8

/-- A character, or a byte that starts none. -/
abbrev Symbol := Option Char

/-- The character that a byte string starts with. -/
def first? (bs : Bytes) : Option Char := (bs.take 4).toByteArray.utf8DecodeChar? 0

/-- The characters and gaps of a byte string. -/
def decode : Bytes → List Symbol
  | [] => []
  | b :: bs =>
    match first? (b :: bs) with
    | some c => some c :: decode (bs.drop (c.utf8Size - 1))
    | none => none :: decode bs
termination_by bs => bs.length
decreasing_by all_goals simp; try omega

theorem first?_utf8EncodeChar_append (c : Char) (bs : Bytes) :
    first? (String.utf8EncodeChar c ++ bs) = some c := by
  have h : (String.utf8EncodeChar c).length ≤ 4 := by
    rw [String.length_utf8EncodeChar]; exact Char.utf8Size_le_four c
  rw [first?, List.take_append, List.take_of_length_le h, List.toByteArray_append]
  exact ByteArray.utf8DecodeChar?_utf8EncodeChar_append

theorem decode_utf8EncodeChar_append (c : Char) (bs : Bytes) :
    decode (String.utf8EncodeChar c ++ bs) = some c :: decode bs := by
  have hlen : (String.utf8EncodeChar c).length = c.utf8Size := String.length_utf8EncodeChar c
  have hfirst := first?_utf8EncodeChar_append c bs
  cases he : String.utf8EncodeChar c with
  | nil => rw [he] at hlen; have := c.utf8Size_pos; simp at hlen; omega
  | cons b rest =>
    rw [he] at hlen hfirst
    rw [List.cons_append] at hfirst ⊢
    rw [decode, hfirst]
    dsimp only
    have hdrop : (rest ++ bs).drop (c.utf8Size - 1) = bs := by
      rw [← hlen, List.length_cons, Nat.add_sub_cancel, List.drop_left]
    rw [hdrop]

/-- The form of a text is made of the forms of its characters. -/
theorem ofText_eq_flatMap (s : String) :
    Bytes.ofText s = s.toList.flatMap String.utf8EncodeChar := by
  rw [Bytes.ofText, String.toUTF8_eq_toByteArray, ← String.utf8Encode_toList,
    List.utf8Encode, List.toList_data_toByteArray]

/-- The form of a text is cut into its characters. -/
theorem decode_ofText (s : String) : decode (Bytes.ofText s) = s.toList.map some := by
  rw [ofText_eq_flatMap]
  induction s.toList with
  | nil => simp [decode]
  | cons c cs ih => rw [List.flatMap_cons, decode_utf8EncodeChar_append, ih, List.map_cons]

end CandyDrop.Utf8
