import CandyDrop.Text.Blank
import CandyDrop.Text.Integer

/-!
# The decimal text of an integer

An integer is written as its digits, after a minus sign if it is negative (`Text.exists_digits`). The
signed reader reads this text as the integer and the unsigned one if it is not negative
(`Text.int64?_ofInt`, `Text.uint64?_ofInt`), and what it is made of is no white space, so that white
space around it can be cut off (`Text.trim_ofInt`).
-/

namespace CandyDrop

namespace Text

variable {n : Int} {p : Char → Bool} {cs ds before after : List Char}

theorem dropWhile_append (hbefore : ∀ c ∈ before, p c = true) (hne : cs ≠ [])
    (hcs : ∀ c ∈ cs, p c = false) (after : List Char) :
    (before ++ (cs ++ after)).dropWhile p = cs ++ after := by
  rw [List.dropWhile_append_of_pos hbefore]
  cases cs with
  | nil => exact absurd rfl hne
  | cons c cs => simp [hcs c (List.mem_cons_self ..)]

/-- Cutting off what is around a text leaves the text. -/
theorem strip_append (hbefore : ∀ c ∈ before, p c = true) (hafter : ∀ c ∈ after, p c = true)
    (hne : cs ≠ []) (hcs : ∀ c ∈ cs, p c = false) : strip p (before ++ (cs ++ after)) = cs := by
  have hback : (after.reverse ++ cs.reverse).dropWhile p = cs.reverse := by
    have hne' : cs.reverse ≠ [] := by simpa using hne
    have hdrop := dropWhile_append (fun c hc => hafter c (List.mem_reverse.1 hc)) hne'
      (fun c hc => hcs c (List.mem_reverse.1 hc)) []
    rwa [List.append_nil] at hdrop
  rw [strip, dropWhile_append hbefore hne hcs, List.reverse_append, hback, List.reverse_reverse]

/-- A character that the decimal text of an integer can have. -/
def isNumeric (c : Char) : Bool := c.isDigit || c == '-'

theorem isNumeric_iff {c : Char} :
    isNumeric c = true ↔ (48 ≤ c.toNat ∧ c.toNat ≤ 57) ∨ c.toNat = 45 := by
  have hminus : c = '-' ↔ c.toNat = 45 := ⟨fun h => h ▸ rfl, fun h => Char.toNat_inj.1 h⟩
  simp [isNumeric, Char.isDigit, UInt32.le_iff_toNat_le, hminus]

theorem isBlank_of_isNumeric {c : Char} (h : isNumeric c = true) : isBlank c = false := by
  rw [isNumeric_iff] at h
  simp only [isBlank, Bool.or_eq_false_iff, Bool.and_eq_false_iff, decide_eq_false_iff_not,
    beq_eq_false_iff_ne]
  omega

theorem toLower_of_isNumeric {c : Char} (h : isNumeric c = true) : c.toLower = c := by
  rw [isNumeric_iff] at h
  unfold Char.toLower
  rw [dif_neg]
  intro hupper
  have : 65 ≤ c.toNat := by simpa [UInt32.le_iff_toNat_le] using hupper.1
  omega

theorem isDigit_of_mem_repr {i : Nat} {c : Char} (h : c ∈ i.repr.toList) : c.isDigit = true := by
  rw [Nat.toList_repr] at h
  exact Nat.isDigit_of_mem_toDigits (by omega) (by omega) h

theorem repr_ne_empty (i : Nat) : i.repr ≠ "" := by
  intro h
  have := digits?_repr i
  rw [h] at this
  cases this

/-- The decimal text of an integer is its digits, after a minus sign if it is negative. -/
theorem exists_digits (n : Int) : ∃ ds, ds ≠ [] ∧ (∀ c ∈ ds, c.isDigit = true) ∧
    digits? ds = some n.natAbs ∧ (ofInt n).toList = if n < 0 then '-' :: ds else ds := by
  refine ⟨n.natAbs.repr.toList, ?_, ?_, digits?_repr _, ?_⟩
  · simp [Nat.toList_repr, Nat.toDigits_ne_nil]
  · exact fun c hc => isDigit_of_mem_repr hc
  · unfold ofInt
    split
    · rw [String.toList_append]
      rfl
    · rfl

theorem ofInt_ne_nil (n : Int) : (ofInt n).toList ≠ [] := by
  obtain ⟨ds, hne, -, -, htext⟩ := exists_digits n
  rw [htext]
  split
  · exact List.cons_ne_nil _ _
  · exact hne

theorem isNumeric_of_mem_ofInt {c : Char} (h : c ∈ (ofInt n).toList) : isNumeric c = true := by
  obtain ⟨ds, -, hds, -, htext⟩ := exists_digits n
  rw [htext] at h
  have hdigit : c ∈ ds → isNumeric c = true := fun hc => by simp [isNumeric, hds c hc]
  split at h
  · rcases List.mem_cons.1 h with rfl | hc
    · rfl
    · exact hdigit hc
  · exact hdigit h

/-- A minus sign stands in front or nowhere. -/
theorem minus_not_mem_tail_ofInt (n : Int) : '-' ∉ (ofInt n).toList.tail := by
  obtain ⟨ds, -, hds, -, htext⟩ := exists_digits n
  have hminus : '-' ∉ ds := fun h => by cases hds _ h
  rw [htext]
  split
  · exact hminus
  · exact fun h => hminus (List.mem_of_mem_tail h)

theorem integer?_minus (cs : List Char) :
    integer? ('-' :: cs) = (digits? cs).map fun m : Nat => -(m : Int) := by
  simp only [integer?]
  cases digits? cs <;> rfl

theorem integer?_of_head_ne {c : Char} (h : c ≠ '-') (cs : List Char) :
    integer? (c :: cs) = (natural? (c :: cs)).map fun m : Nat => (m : Int) := by
  unfold integer?
  split
  · next heq =>
    cases heq
    exact absurd rfl h
  · cases natural? (c :: cs) <;> rfl

/-- Digits alone are read as the number that they spell. -/
theorem natural?_of_isDigit (h : ∀ c ∈ ds, c.isDigit = true) : natural? ds = digits? ds := by
  unfold natural?
  split
  · cases h _ (List.mem_cons_self ..)
  · rfl

theorem integer?_ofInt (n : Int) : integer? (ofInt n).toList = some n := by
  obtain ⟨ds, hne, hds, hvalue, htext⟩ := exists_digits n
  rw [htext]
  split
  · next hneg =>
    rw [integer?_minus, hvalue, Option.map_some, Int.ofNat_natAbs_of_nonpos (by omega), Int.neg_neg]
  · next hpos =>
    obtain ⟨d, ds, rfl⟩ := List.exists_cons_of_ne_nil hne
    have hminus : d ≠ '-' := by
      rintro rfl
      cases hds _ (List.mem_cons_self ..)
    rw [integer?_of_head_ne hminus, natural?_of_isDigit hds, hvalue, Option.map_some,
      Int.natAbs_of_nonneg (by omega)]

/-- A signed number of 64 bits is read back from its text. -/
theorem int64?_ofInt (hlow : -0x8000000000000000 ≤ n) (hhigh : n < 0x8000000000000000) :
    int64? (ofInt n) = some (Int64.ofInt n) := by
  rw [int64?, integer?_ofInt]
  exact if_pos ⟨hlow, hhigh⟩

/-- An unsigned number of 64 bits is read back from its text, and a negative one is refused. -/
theorem uint64?_ofInt (hhigh : n < UInt64.size) :
    uint64? (ofInt n) = if 0 ≤ n then some (UInt64.ofNat n.toNat) else none := by
  obtain ⟨ds, hne, hds, hvalue, htext⟩ := exists_digits n
  rw [uint64?, htext]
  by_cases hneg : n < 0
  · have hminus : natural? ('-' :: ds) = none := rfl
    rw [if_pos hneg, hminus, if_neg (by omega)]
  · have hlt : n.natAbs < UInt64.size := by omega
    have hsame : n.natAbs = n.toNat := by omega
    rw [if_neg hneg, natural?_of_isDigit hds, hvalue, if_pos (by omega)]
    dsimp only
    rw [if_pos hlt, hsame]

/-- A number of 64 bits is read back from its text. -/
theorem uint64?_repr {i : Nat} (h : i < UInt64.size) : uint64? i.repr = some (UInt64.ofNat i) := by
  have htext : ofInt i = i.repr := by
    rw [ofInt, if_neg (by omega), Int.natAbs_natCast]
  rw [← htext, uint64?_ofInt (by exact_mod_cast h), if_pos (by omega), Int.toNat_natCast]

/-- White space around the text of an integer is cut off. -/
theorem trim_ofInt (hbefore : ∀ c ∈ before, isBlank c = true) (hafter : ∀ c ∈ after, isBlank c = true)
    (n : Int) : trim (String.ofList (before ++ (ofInt n).toList ++ after)) = ofInt n := by
  have hcore : ∀ c ∈ (ofInt n).toList, isBlank c = false := fun c hc =>
    isBlank_of_isNumeric (isNumeric_of_mem_ofInt hc)
  rw [trim, String.toList_ofList, List.append_assoc,
    strip_append hbefore hafter (ofInt_ne_nil n) hcore, String.ofList_toList]

end Text

end CandyDrop
