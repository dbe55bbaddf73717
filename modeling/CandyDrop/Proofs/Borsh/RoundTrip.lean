import CandyDrop.Borsh
import Mathlib.Algebra.GroupWithZero.Nat

/-!
# Decoding what was encoded

Each encoder has a lemma about the length of what it writes, and one about reading it back.
`Takes d bs x` says that the decoder `d` takes the bytes `bs` off the front of its input for the
value `x`, whatever follows them. Each encoder has its lemma; a text or a list can be taken back if
four bytes hold its length (`takes_text`, `takes_list`).
-/

namespace CandyDrop

namespace Bytes

/-- The two number functions are inverse to each other up to the width. -/
theorem ofLittleEndian_littleEndian (width n : Nat) :
    ofLittleEndian (littleEndian width n) = n % 256 ^ width := by
  induction width generalizing n with
  | zero => simp [littleEndian, ofLittleEndian, Nat.mod_one]
  | succ width ih =>
    rw [littleEndian, ofLittleEndian, ih, Nat.pow_succ, Nat.mul_comm (256 ^ width), Nat.mod_mul]
    simp

@[simp] theorem length_ofText (s : String) : (ofText s).length = sizeOfText s := by
  rw [ofText, sizeOfText, Array.length_toList, String.toUTF8_eq_toByteArray]
  exact String.size_toByteArray

theorem toText?_ofText (s : String) : toText? (ofText s) = some s := by
  have hbytes : (⟨(ofText s).toArray⟩ : ByteArray) = s.toByteArray := rfl
  rw [toText?, hbytes, String.fromUTF8?, dif_pos s.isValidUTF8]
  rfl

end Bytes

/-! ## Lengths -/

namespace Borsh

variable {α : Type}

@[simp] theorem length_u8 (n : UInt8) : (u8 n).length = 1 := rfl

@[simp] theorem length_u16 (n : UInt16) : (u16 n).length = 2 := Bytes.length_littleEndian 2 _

@[simp] theorem length_u32 (n : Nat) : (u32 n).length = 4 := Bytes.length_littleEndian 4 n

@[simp] theorem length_u64 (n : UInt64) : (u64 n).length = 8 := Bytes.length_littleEndian 8 _

@[simp] theorem length_i64 (n : Int64) : (i64 n).length = 8 := length_u64 _

@[simp] theorem length_bool (b : Bool) : (bool b).length = 1 := rfl

@[simp] theorem length_address (a : Address) : (address a).length = 32 := a.length_bytes

@[simp] theorem length_text (s : String) : (text s).length = 4 + Bytes.sizeOfText s := by
  rw [text, List.length_append, length_u32, Bytes.length_ofText]

/-- A list of items of one length. -/
theorem length_list {item : α → Bytes} {n : Nat} (h : ∀ x, (item x).length = n) (xs : List α) :
    (list item xs).length = 4 + xs.length * n := by
  have hsum : (xs.flatMap item).length = xs.length * n := by
    induction xs with
    | nil => exact (Nat.zero_mul n).symm
    | cons x xs ih =>
      rw [List.flatMap_cons, List.length_append, h, ih, List.length_cons, Nat.succ_mul,
        Nat.add_comm]
  rw [list, List.length_append, length_u32, hsum]

/-- An optional value takes its byte and the length of the value if there is one. -/
theorem length_option (value : α → Bytes) (x : Option α) :
    (option value x).length = 1 + x.elim 0 fun x => (value x).length := by
  cases x with
  | none => rfl
  | some x => exact Nat.add_comm ..

end Borsh

/-! ## Decoding -/

namespace Borsh.Decoder

variable {α β : Type}

/-- The decoder takes these bytes for the value and leaves what follows them. -/
def Takes (d : Decoder α) (bs : Bytes) (x : α) : Prop :=
  ∀ rest, d (bs ++ rest) = some (x, rest)

theorem takes_pure (x : α) : Takes (pure x) [] x := fun _ => rfl

theorem Takes.bind {d : Decoder α} {f : α → Decoder β} {bs cs : Bytes} {x : α} {y : β}
    (h : Takes d bs x) (hf : Takes (f x) cs y) : Takes (d >>= f) (bs ++ cs) y := by
  intro rest
  show (d (bs ++ cs ++ rest)).bind (fun r => f r.1 r.2) = _
  rw [List.append_assoc, h (cs ++ rest), Option.bind_some]
  exact hf rest

theorem Takes.map {d : Decoder α} {bs : Bytes} {x : α} (h : Takes d bs x) (f : α → β) :
    Takes (f <$> d) bs (f x) := by
  intro rest
  show (d (bs ++ rest)).bind (fun r => some (f r.1, r.2)) = _
  rw [h rest, Option.bind_some]

theorem takes_take {n : Nat} {bs : Bytes} (h : bs.length = n) : Takes (take n) bs bs := by
  intro rest
  subst h
  simp [take]

theorem takes_number {width n : Nat} (h : n < 256 ^ width) :
    Takes (number width) (Bytes.littleEndian width n) n := by
  have htake := (takes_take (Bytes.length_littleEndian width n)).map Bytes.ofLittleEndian
  rwa [Bytes.ofLittleEndian_littleEndian, Nat.mod_eq_of_lt h] at htake

theorem takes_u32 {n : Nat} (h : n < 2 ^ 32) : Takes u32 (Borsh.u32 n) n := takes_number h

theorem takes_text {s : String} (h : Bytes.sizeOfText s < 2 ^ 32) :
    Takes text (Borsh.text s) s := by
  refine (takes_u32 h).bind ?_
  have htake := takes_take (Bytes.length_ofText s)
  rw [← List.append_nil (Bytes.ofText s)]
  refine htake.bind ?_
  rw [Bytes.toText?_ofText]
  exact takes_pure s

theorem takes_replicate {d : Decoder α} {encode : β → Bytes} {value : β → α} {xs : List β}
    (h : ∀ x ∈ xs, Takes d (encode x) (value x)) :
    Takes (replicate d xs.length) (xs.flatMap encode) (xs.map value) := by
  induction xs with
  | nil => exact takes_pure []
  | cons x xs ih =>
    have hx := h x (List.mem_cons_self ..)
    have hxs := ih fun y hy => h y (List.mem_cons_of_mem _ hy)
    rw [List.flatMap_cons]
    refine hx.bind ?_
    rw [← List.append_nil (xs.flatMap encode)]
    exact hxs.bind (takes_pure _)

theorem takes_list {d : Decoder α} {encode : β → Bytes} {value : β → α} {xs : List β}
    (hlen : xs.length < 2 ^ 32) (h : ∀ x ∈ xs, Takes d (encode x) (value x)) :
    Takes (list d) (Borsh.list encode xs) (xs.map value) :=
  (takes_u32 hlen).bind (takes_replicate h)

end Borsh.Decoder

end CandyDrop
