import CandyDrop.Address.Basic
import Mathlib.Algebra.GroupWithZero.Nat

/-!
# The text of an address

What the base 58 form of a byte string is, is said here without writing or reading
(`Base58.IsForm`): a `1` for each zero byte at its start, and the number of the other bytes in base
58, without a zero in front. Every byte string has one form, the one that is written
(`Base58.isForm_iff`), and a text is read as the byte string whose form it is
(`Base58.decode?_eq_some_iff`).

The form of 32 bytes is never longer than an address may be (`Address.length_text`). So an address is
read back from its text (`Address.ofText?_text`), and no other text names it
(`Address.ofText?_eq_some_iff`): a record that names a machine by its text names that machine.
-/

namespace CandyDrop

namespace Numeral

variable {b n d : Nat} {ds rest : List Nat}

theorem pushDigits_zero : pushDigits b 0 rest = rest := by
  rw [pushDigits, if_pos rfl]

theorem pushDigits_of_ne (h : n ≠ 0) :
    pushDigits b n rest = pushDigits b (n / (b + 2)) (n % (b + 2) :: rest) := by
  rw [pushDigits, if_neg h]

theorem pushDigits_eq_append : pushDigits b n rest = toDigits b n ++ rest := by
  induction n using Nat.strongRecOn generalizing rest with
  | ind n ih =>
    unfold toDigits
    by_cases h : n = 0
    · rw [h, pushDigits_zero, pushDigits_zero, List.nil_append]
    · have hlt : n / (b + 2) < n := Nat.div_lt_self (by omega) (by omega)
      rw [pushDigits_of_ne h, pushDigits_of_ne h, ih _ hlt, ih _ hlt,
        List.append_assoc, List.singleton_append]

theorem toDigits_zero : toDigits b 0 = [] := pushDigits_zero

/-- The digits of the quotient by the base come before the remainder. -/
theorem toDigits_of_ne (h : n ≠ 0) :
    toDigits b n = toDigits b (n / (b + 2)) ++ [n % (b + 2)] := by
  unfold toDigits
  rw [pushDigits_of_ne h, pushDigits_eq_append, toDigits]

/-- The last digit of a number comes after the digits of the rest. -/
theorem toDigits_mul_add (hd : d < b + 2) (h : (b + 2) * n + d ≠ 0) :
    toDigits b ((b + 2) * n + d) = toDigits b n ++ [d] := by
  have hdiv : ((b + 2) * n + d) / (b + 2) = n := by
    rw [Nat.mul_add_div (by omega), Nat.div_eq_of_lt hd, Nat.add_zero]
  have hmod : ((b + 2) * n + d) % (b + 2) = d := by
    rw [Nat.mul_add_mod, Nat.mod_eq_of_lt hd]
  rw [toDigits_of_ne h, hdiv, hmod]

theorem toDigits_foldl (hds : ∀ d ∈ ds, d < b + 2) (hn : n ≠ 0) :
    toDigits b (ds.foldl (fun m d => (b + 2) * m + d) n) = toDigits b n ++ ds := by
  induction ds generalizing n with
  | nil => simp
  | cons d ds ih =>
    have hd : d < b + 2 := hds d (List.mem_cons_self ..)
    have hpos : (b + 2) * n + d ≠ 0 := by
      have : 0 < (b + 2) * n := Nat.mul_pos (by omega) (Nat.pos_of_ne_zero hn)
      omega
    rw [List.foldl_cons, ih (fun e he => hds e (List.mem_cons_of_mem _ he)) hpos,
      toDigits_mul_add hd hpos, List.append_assoc, List.singleton_append]

/-- Digits without a leading zero are the digits of the number that they spell. -/
theorem toDigits_ofDigits (hds : ∀ d ∈ ds, d < b + 2) (hhead : ds.head? ≠ some 0) :
    toDigits b (ofDigits (b + 2) ds) = ds := by
  cases ds with
  | nil => exact toDigits_zero
  | cons d ds =>
    have hd : d < b + 2 := hds d (List.mem_cons_self ..)
    have hne : d ≠ 0 := fun h => hhead (by simp [h])
    have hone := toDigits_mul_add (n := 0) hd (by omega)
    rw [Nat.mul_zero, Nat.zero_add, toDigits_zero, List.nil_append] at hone
    rw [ofDigits, List.foldl_cons, Nat.mul_zero, Nat.zero_add,
      toDigits_foldl (fun e he => hds e (List.mem_cons_of_mem _ he)) hne, hone,
      List.singleton_append]

theorem lt_of_mem_toDigits (h : d ∈ toDigits b n) : d < b + 2 := by
  induction n using Nat.strongRecOn with
  | ind n ih =>
    by_cases hn : n = 0
    · rw [hn, toDigits_zero] at h
      cases h
    · rw [toDigits_of_ne hn, List.mem_append, List.mem_singleton] at h
      rcases h with h | rfl
      · exact ih _ (Nat.div_lt_self (by omega) (by omega)) h
      · exact Nat.mod_lt _ (by omega)

theorem head?_toDigits_ne (b n : Nat) : (toDigits b n).head? ≠ some 0 := by
  induction n using Nat.strongRecOn with
  | ind n ih =>
    by_cases hn : n = 0
    · simp [hn, toDigits_zero]
    · rw [toDigits_of_ne hn]
      by_cases hdiv : n / (b + 2) = 0
      · have hlt : n < b + 2 := (Nat.div_eq_zero_iff_lt (by omega)).1 hdiv
        rw [hdiv, toDigits_zero, Nat.mod_eq_of_lt hlt]
        simpa using hn
      · have hrest := ih _ (Nat.div_lt_self (by omega) (by omega) : n / (b + 2) < n)
        cases hds : toDigits b (n / (b + 2)) with
        | nil =>
          have := ofDigits_toDigits b (n / (b + 2))
          rw [hds] at this
          exact absurd this.symm hdiv
        | cons e es =>
          rw [hds] at hrest
          simpa using hrest

/-- A number below a power of the base has no more digits than that. -/
theorem length_toDigits_le {k : Nat} (h : n < (b + 2) ^ k) : (toDigits b n).length ≤ k := by
  induction k generalizing n with
  | zero =>
    obtain rfl : n = 0 := by simpa using h
    rw [toDigits_zero]
    exact Nat.le_refl _
  | succ k ih =>
    by_cases hn : n = 0
    · simp [hn, toDigits_zero]
    · have hdiv : n / (b + 2) < (b + 2) ^ k := by
        rw [Nat.div_lt_iff_lt_mul (by omega)]
        exact h
      have := ih hdiv
      rw [toDigits_of_ne hn, List.length_append, List.length_singleton]
      omega

/-- Digits spell a number below the power of the base that their number is. -/
theorem ofDigits_lt (hds : ∀ d ∈ ds, d < b) : ofDigits b ds < b ^ ds.length := by
  have hfold : ∀ n, ds.foldl (fun m d => b * m + d) n < b ^ ds.length * (n + 1) := by
    induction ds with
    | nil => simp
    | cons d ds ih =>
      intro n
      have hd : d < b := hds d (List.mem_cons_self ..)
      have hrest := ih (fun e he => hds e (List.mem_cons_of_mem _ he)) (b * n + d)
      have hle : b * n + d + 1 ≤ b * (n + 1) := by
        rw [Nat.mul_add, Nat.mul_one]
        omega
      calc (d :: ds).foldl (fun m d => b * m + d) n < b ^ ds.length * (b * n + d + 1) := hrest
        _ ≤ b ^ ds.length * (b * (n + 1)) := Nat.mul_le_mul_left _ hle
        _ = b ^ (d :: ds).length * (n + 1) := by
          rw [List.length_cons, Nat.pow_succ, Nat.mul_assoc]
  rw [ofDigits]
  simpa using hfold 0

end Numeral

namespace Base58

theorem takeWhile_append_dropWhile {α : Type} {p : α → Bool} (xs : List α) {ys : List α}
    (hxs : ∀ a ∈ xs, p a = true) (hys : ∀ a, ys.head? = some a → p a = false) :
    (xs ++ ys).takeWhile p = xs ∧ (xs ++ ys).dropWhile p = ys := by
  rw [List.takeWhile_append_of_pos hxs, List.dropWhile_append_of_pos hxs]
  cases ys with
  | nil => simp
  | cons y ys => simp [hys y rfl]

theorem value?_digit : ∀ n < 58, value? (digit n) = some n := by
  decide

theorem digit_ne_one : ∀ n < 58, n ≠ 0 → digit n ≠ '1' := by
  decide

theorem size_digit : ∀ n < 58, (digit n).utf8Size = 1 := by
  decide

/-- A text is the base 58 form of a byte string: a `1` for each zero byte in front of the others,
and the number that these spell, most significant digit first. -/
inductive IsForm : String → Bytes → Prop
  | spell (zeros : Nat) (ds : List Nat) (rest : Bytes) (hdigits : ∀ d ∈ ds, d < 58)
      (hhead : ds.head? ≠ some 0) (hrest : rest.head? ≠ some 0)
      (hnumber : Numeral.ofDigits 58 ds = Numeral.ofDigits 256 (rest.map UInt8.toNat)) :
    IsForm (String.ofList (List.replicate zeros '1' ++ ds.map digit))
      (List.replicate zeros 0 ++ rest)

variable {s : String} {bs rest : Bytes} {ds : List Nat}

section

variable {α : Type} [BEq α] [LawfulBEq α]

theorem takeWhile_eq_replicate (x : α) (xs : List α) :
    xs.takeWhile (· == x) = List.replicate (xs.takeWhile (· == x)).length x :=
  List.eq_replicate_iff.2 ⟨rfl, fun a ha =>
    beq_iff_eq.1 (List.all_eq_true.1 (List.all_takeWhile (p := (· == x)) (l := xs)) a ha)⟩

theorem head?_dropWhile_ne (x : α) (xs : List α) : (xs.dropWhile (· == x)).head? ≠ some x := by
  intro h
  have hnot := List.head?_dropWhile_not (· == x) xs
  rw [h] at hnot
  simp at hnot

end

theorem eq_digit_of_value? {c : Char} {d : Nat} (h : value? c = some d) : c = digit d ∧ d < 58 := by
  obtain ⟨hlt, hc, -⟩ := List.findIdx?_eq_some_iff_getElem.1 h
  refine ⟨?_, hlt⟩
  rw [digit, List.getD_eq_getElem?_getD, List.getElem?_eq_getElem hlt]
  exact (beq_iff_eq.1 hc).symm

/-- The digits with some values are the texts that have these values. -/
theorem mapM_value?_eq_some_iff {cs : List Char} :
    cs.mapM value? = some ds ↔ cs = ds.map digit ∧ ∀ d ∈ ds, d < 58 := by
  constructor
  · intro h
    induction cs generalizing ds with
    | nil =>
      cases h
      simp
    | cons c cs ih =>
      simp only [List.mapM_cons, Option.bind_eq_bind, Option.bind_eq_some_iff] at h
      obtain ⟨d, hd, es, hes, h⟩ := h
      cases h
      obtain ⟨rfl, hlt⟩ := eq_digit_of_value? hd
      obtain ⟨rfl, hrest⟩ := ih hes
      exact ⟨rfl, List.forall_mem_cons.2 ⟨hlt, hrest⟩⟩
  · rintro ⟨rfl, h⟩
    induction ds with
    | nil => rfl
    | cons d ds ih =>
      rw [List.forall_mem_cons] at h
      simp [value?_digit d h.1, ih h.2]

/-- Digits that do not start with zero are not taken for the `1` of zero bytes. -/
theorem head?_map_digit_ne (hdigits : ∀ d ∈ ds, d < 58) (hhead : ds.head? ≠ some 0) :
    (ds.map digit).head? ≠ some '1' := by
  rw [List.head?_map]
  intro h
  obtain ⟨d, hd, hone⟩ := Option.map_eq_some_iff.1 h
  have hne : d ≠ 0 := by
    rintro rfl
    exact hhead hd
  exact digit_ne_one d (hdigits d (List.mem_of_head? hd)) hne hone

theorem lt_of_mem_map_toNat {d : Nat} (h : d ∈ rest.map UInt8.toNat) : d < 256 := by
  obtain ⟨b, -, rfl⟩ := List.mem_map.1 h
  exact b.toNat_lt

theorem head?_map_toNat_ne (h : rest.head? ≠ some 0) :
    (rest.map UInt8.toNat).head? ≠ some 0 := by
  rw [List.head?_map]
  intro hzero
  obtain ⟨b, hb, h0⟩ := Option.map_eq_some_iff.1 hzero
  have hb0 : b = 0 := UInt8.toNat_inj.1 h0
  exact h (hb0 ▸ hb)

/-- A text is read as the byte string whose form it is. -/
theorem decode?_of_isForm (h : IsForm s bs) : decode? s = some bs := by
  obtain ⟨zeros, ds, rest, hdigits, hhead, hrest, hnumber⟩ := h
  have hone : ∀ c, (ds.map digit).head? = some c → (c == '1') = false := by
    rintro c hc
    have hne := head?_map_digit_ne hdigits hhead
    rw [hc] at hne
    simpa using hne
  obtain ⟨htake, hdrop⟩ := takeWhile_append_dropWhile (List.replicate zeros '1') (by simp) hone
  have hbytes : Numeral.toDigits 254 (Numeral.ofDigits 58 ds) = rest.map UInt8.toNat := by
    rw [hnumber]
    exact Numeral.toDigits_ofDigits (fun _ => lt_of_mem_map_toNat) (head?_map_toNat_ne hrest)
  have hback : (rest.map UInt8.toNat).map UInt8.ofNat = rest := by
    simp [Function.comp_def]
  simp only [decode?, String.toList_ofList]
  rw [htake, hdrop, mapM_value?_eq_some_iff.2 ⟨rfl, hdigits⟩]
  simp only [Option.bind_eq_bind, Option.bind_some, Option.pure_def]
  rw [hbytes, hback, List.map_replicate]

theorem isForm_of_decode? (h : decode? s = some bs) : IsForm s bs := by
  simp only [decode?, Option.bind_eq_bind, Option.bind_eq_some_iff, Option.pure_def,
    Option.some.injEq] at h
  obtain ⟨ds, hds, rfl⟩ := h
  obtain ⟨hrest, hdigits⟩ := mapM_value?_eq_some_iff.1 hds
  have hlt : ∀ d ∈ Numeral.toDigits 254 (Numeral.ofDigits 58 ds), d < 256 := fun d hd =>
    Numeral.lt_of_mem_toDigits hd
  have hback : ((Numeral.toDigits 254 (Numeral.ofDigits 58 ds)).map UInt8.ofNat).map UInt8.toNat =
      Numeral.toDigits 254 (Numeral.ofDigits 58 ds) := by
    rw [List.map_map]
    exact (List.map_congr_left fun d hd => UInt8.toNat_ofNat_of_lt' (hlt d hd)).trans
      (List.map_id _)
  have hhead : ds.head? ≠ some 0 := by
    have hne := head?_dropWhile_ne '1' s.toList
    rw [hrest, List.head?_map] at hne
    intro hzero
    rw [hzero] at hne
    exact hne rfl
  have hbytes : ((Numeral.toDigits 254 (Numeral.ofDigits 58 ds)).map UInt8.ofNat).head? ≠
      some 0 := by
    have hne := Numeral.head?_toDigits_ne 254 (Numeral.ofDigits 58 ds)
    rw [← hback, List.head?_map] at hne
    intro hzero
    rw [hzero] at hne
    exact hne rfl
  have hnumber : Numeral.ofDigits 58 ds = Numeral.ofDigits 256
      (((Numeral.toDigits 254 (Numeral.ofDigits 58 ds)).map UInt8.ofNat).map UInt8.toNat) := by
    rw [hback]
    exact (Numeral.ofDigits_toDigits 254 _).symm
  have hform := IsForm.spell (s.toList.takeWhile (· == '1')).length ds _ hdigits hhead hbytes hnumber
  rwa [← hrest, ← takeWhile_eq_replicate, List.takeWhile_append_dropWhile, String.ofList_toList,
    ← List.map_const'] at hform

/-- A byte string is written in its form. -/
theorem isForm_encode (bs : Bytes) : IsForm (encode bs) bs := by
  have hform := IsForm.spell (bs.takeWhile (· == 0)).length
    (Numeral.toDigits 56 (Numeral.ofDigits 256 ((bs.dropWhile (· == 0)).map UInt8.toNat)))
    (bs.dropWhile (· == 0)) (fun _ => Numeral.lt_of_mem_toDigits) (Numeral.head?_toDigits_ne 56 _)
    (head?_dropWhile_ne 0 bs) (Numeral.ofDigits_toDigits 56 _)
  rwa [← takeWhile_eq_replicate, List.takeWhile_append_dropWhile, ← List.map_const'] at hform

/-- **A byte string is read back** from its base 58 form. -/
theorem decode?_encode (bs : Bytes) : decode? (encode bs) = some bs :=
  decode?_of_isForm (isForm_encode bs)

/-- Texts are read as the byte strings whose forms they are, and as nothing otherwise. -/
theorem decode?_eq_some_iff : decode? s = some bs ↔ IsForm s bs :=
  ⟨isForm_of_decode?, decode?_of_isForm⟩

/-- **A byte string has one form**, the one that is written. -/
theorem isForm_iff : IsForm s bs ↔ s = encode bs := by
  constructor
  · rintro ⟨zeros, ds, rest, hdigits, hhead, hrest, hnumber⟩
    have hzero : ∀ b, rest.head? = some b → (b == 0) = false := by
      intro b hb
      rw [hb] at hrest
      simpa using hrest
    obtain ⟨htake, hdrop⟩ := takeWhile_append_dropWhile (List.replicate zeros 0) (by simp) hzero
    have hback : Numeral.toDigits 56 (Numeral.ofDigits 256 (rest.map UInt8.toNat)) = ds := by
      rw [← hnumber]
      exact Numeral.toDigits_ofDigits hdigits hhead
    rw [encode, htake, hdrop, hback, List.map_replicate]
  · rintro rfl
    exact isForm_encode bs

/-- A text is the form of no more bytes than it has characters. -/
theorem IsForm.length_le (h : IsForm s bs) : bs.length ≤ s.toList.length := by
  obtain ⟨zeros, ds, rest, hdigits, -, hrest, hnumber⟩ := h
  have hlt : Numeral.ofDigits 58 ds < (254 + 2) ^ ds.length :=
    Nat.lt_of_lt_of_le (Numeral.ofDigits_lt hdigits) (Nat.pow_le_pow_left (by decide) _)
  have hlength := Numeral.length_toDigits_le hlt
  rw [hnumber, Numeral.toDigits_ofDigits (fun _ => lt_of_mem_map_toNat) (head?_map_toNat_ne hrest),
    List.length_map] at hlength
  simp only [String.toList_ofList, List.length_append, List.length_replicate, List.length_map]
  omega

theorem pow_le_pow : ∀ k < 33, 256 ^ k ≤ 58 ^ (k + 12) := by
  decide

theorem utf8Size_of_mem_encode {bs : Bytes} {c : Char} (h : c ∈ (encode bs).toList) :
    c.utf8Size = 1 := by
  simp only [encode, String.toList_ofList, List.mem_append, List.mem_map] at h
  rcases h with ⟨_, -, rfl⟩ | ⟨d, hd, rfl⟩
  · rfl
  · exact size_digit d (Numeral.lt_of_mem_toDigits hd)

/-- The base 58 form of at most 32 bytes has at most twelve characters more. -/
theorem length_encode_le {bs : Bytes} (h : bs.length ≤ 32) :
    (encode bs).toList.length ≤ bs.length + 12 := by
  have hsplit : (bs.takeWhile (· == 0)).length + (bs.dropWhile (· == 0)).length = bs.length := by
    rw [← List.length_append, List.takeWhile_append_dropWhile]
  have hbytes : ∀ d ∈ (bs.dropWhile (· == 0)).map UInt8.toNat, d < 256 := fun _ =>
    lt_of_mem_map_toNat
  have hlt := Numeral.ofDigits_lt hbytes
  rw [List.length_map] at hlt
  have hpow := pow_le_pow (bs.dropWhile (· == 0)).length (by omega)
  have hdigits := Numeral.length_toDigits_le (b := 56) (Nat.lt_of_lt_of_le hlt hpow)
  simp only [encode, String.toList_ofList, List.length_append, List.length_map]
  omega

end Base58

namespace Address

theorem sizeOfText_ofList {cs : List Char} (h : ∀ c ∈ cs, c.utf8Size = 1) :
    Bytes.sizeOfText (String.ofList cs) = cs.length := by
  induction cs with
  | nil => rfl
  | cons c cs ih =>
    have hrest := ih fun d hd => h d (List.mem_cons_of_mem _ hd)
    unfold Bytes.sizeOfText at hrest ⊢
    rw [String.ofList_cons, String.utf8ByteSize_append, String.utf8ByteSize_singleton, hrest,
      h c (List.mem_cons_self ..), List.length_cons, Nat.add_comm]

theorem isForm_text (a : Address) : Base58.IsForm a.text a.bytes := Base58.isForm_encode a.bytes

/-- The text of an address has from 32 to 44 characters. -/
theorem length_text (a : Address) :
    32 ≤ a.text.toList.length ∧ a.text.toList.length ≤ maxTextLength := by
  have hlower := a.isForm_text.length_le
  have hupper := Base58.length_encode_le (Nat.le_of_eq a.length_bytes)
  rw [a.length_bytes] at hlower hupper
  exact ⟨hlower, hupper⟩

theorem sizeOfText_text_le (a : Address) : Bytes.sizeOfText a.text ≤ maxTextLength := by
  have hchars : ∀ c ∈ a.text.toList, c.utf8Size = 1 := fun c hc =>
    Base58.utf8Size_of_mem_encode hc
  have hsize := sizeOfText_ofList hchars
  rw [String.ofList_toList] at hsize
  rw [hsize]
  exact a.length_text.2

/-- The short name of a machine has six bytes. -/
theorem sizeOfText_shortName (a : Address) : Bytes.sizeOfText a.shortName = 6 := by
  have hchars : ∀ c ∈ a.text.toList.take 6, c.utf8Size = 1 := fun c hc =>
    Base58.utf8Size_of_mem_encode (List.mem_of_mem_take hc)
  rw [shortName, sizeOfText_ofList hchars, List.length_take]
  exact Nat.min_eq_left (Nat.le_trans (by decide) a.length_text.1)

/-- **An address is read back from its text.** -/
theorem ofText?_text (a : Address) : ofText? a.text = some a := by
  rw [ofText?, if_pos a.sizeOfText_text_le, text, Base58.decode?_encode, Option.bind_some,
    ofBytes?_bytes]

/-- A text names the address whose bytes it is the form of, and no other. -/
theorem ofText?_eq_some_iff {s : String} {a : Address} :
    ofText? s = some a ↔ Base58.IsForm s a.bytes := by
  constructor
  · intro h
    rw [ofText?] at h
    split at h
    · obtain ⟨bs, hbs, ha⟩ := Option.bind_eq_some_iff.1 h
      rw [ofBytes?] at ha
      split at ha
      · cases ha
        exact Base58.decode?_eq_some_iff.1 hbs
      · cases ha
    · cases h
  · intro h
    obtain rfl : s = a.text := Base58.isForm_iff.1 h
    exact a.ofText?_text

/-- A text that is the form of no address names none. -/
theorem ofText?_eq_none_iff {s : String} :
    ofText? s = none ↔ ∀ a : Address, ¬Base58.IsForm s a.bytes := by
  simp only [Option.eq_none_iff_forall_ne_some, ne_eq, ofText?_eq_some_iff]

theorem text_ne_empty (a : Address) : a.text ≠ "" := by
  intro h
  have hread := a.ofText?_text
  have hnone : ofText? "" = none := by decide +kernel
  rw [h, hnone] at hread
  cases hread

end Address

end CandyDrop
