import CandyDrop.Json.Printer
import CandyDrop.Json.Reader

/-!
# What is written in JSON is read back

The values that a record of a drop is made of are texts, truth values and objects of such values.
`Plain d j` says that `j` is one of them and nests at most `d` containers. The characters of such a
value are read as that value, and what follows them is left (`readValue_chars`); so the bytes of its
text spell it (`ofBytes?_render`).

A string is settled piece by piece: each character has one written form (`escape`), which is read
as one piece (`readPieces_escape`), and the pieces spell the text again (`spell?_map_pieceOf`).
-/

namespace CandyDrop.Json

/-! ## Strings -/

/-- The piece that the written form of a character is read as. -/
def pieceOf (c : Char) : Piece :=
  if c.toNat < 0x20 ∧ c ≠ '\x08' ∧ c ≠ '\t' ∧ c ≠ '\n' ∧ c ≠ '\x0c' ∧ c ≠ '\r' then .unit c.toNat
  else .char c

theorem hexValue?_hexDigit : ∀ n < 16, Bytes.hexValue? (Bytes.hexDigit n) = some n := by decide

theorem readPieces_escape (c : Char) (s : Input) :
    readPieces ((escape c).map some ++ s) = consPiece (pieceOf c) (readPieces s) := by
  unfold escape
  -- the escapes of one letter
  split
  · next h => subst h; simp [readPieces, escaped?, pieceOf]
  split
  · next h => subst h; simp [readPieces, escaped?, pieceOf]
  split
  · next h => subst h; simp [readPieces, escaped?, pieceOf]
  split
  · next h => subst h; simp [readPieces, escaped?, pieceOf]
  split
  · next h => subst h; simp [readPieces, escaped?, pieceOf]
  split
  · next h => subst h; simp [readPieces, escaped?, pieceOf]
  split
  · next h => subst h; simp [readPieces, escaped?, pieceOf]
  split
  · next hq hb h1 h2 h3 h4 h5 hlt =>
    have hlt' : c.toNat < 0x20 := hlt
    have hzero : Bytes.hexValue? '0' = some 0 := by decide
    have hhigh := hexValue?_hexDigit (c.toNat / 16) (by omega)
    have hlow : Bytes.hexValue? (Bytes.hexDigit c.toNat) = some (c.toNat % 16) := by
      rw [← hexValue?_hexDigit (c.toNat % 16) (by omega)]
      simp [Bytes.hexDigit]
    have hn : 16 * (c.toNat / 16) + c.toNat % 16 = c.toNat := by omega
    simp only [List.map_cons, List.map_nil, List.cons_append, List.nil_append]
    rw [readPieces]
    simp [hexUnit?, hzero, hhigh, hlow, hn, pieceOf, hlt', h1, h2, h3, h4, h5]
  · next hq hb h1 h2 h3 h4 h5 hlt =>
    have hlt' : ¬ c.toNat < 0x20 := hlt
    simp only [List.map_cons, List.map_nil, List.cons_append, List.nil_append]
    rw [readPieces]
    · simp [hlt, pieceOf, hlt']
    · simpa using hq
    all_goals simp [hb]

theorem readPieces_flatMap_escape (cs : List Char) (s : Input) :
    readPieces ((cs.flatMap escape).map some ++ some '"' :: s) = some (cs.map pieceOf, s) := by
  induction cs with
  | nil => simp [readPieces]
  | cons c cs ih =>
    rw [List.flatMap_cons, List.map_append, List.append_assoc, readPieces_escape, ih]
    rfl

theorem spell?_cons_pieceOf (c : Char) (ps : List Piece) :
    spell? (pieceOf c :: ps) = (spell? ps).map (c :: ·) := by
  unfold pieceOf
  split
  · next h =>
    have hlead : ¬ (0xD800 ≤ c.toNat ∧ c.toNat ≤ 0xDBFF) := by omega
    have htrail : ¬ (0xDC00 ≤ c.toNat ∧ c.toNat ≤ 0xDFFF) := by omega
    have hany : ¬ (0xD800 ≤ c.toNat ∧ c.toNat ≤ 0xDFFF) := by omega
    match ps with
    | .unit m :: ps => rw [spell?, if_neg hlead, if_neg htrail, Char.ofNat_toNat]
    | [] => simp [spell?, hany]
    | .char d :: ps => simp [spell?, hany]
    | .gap :: ps => simp [spell?, hany]
  · rw [spell?]

theorem spell?_map_pieceOf (cs : List Char) : spell? (cs.map pieceOf) = some cs := by
  induction cs with
  | nil => rfl
  | cons c cs ih => rw [List.map_cons, spell?_cons_pieceOf, ih]; rfl

/-- A text in quotes is read as that text; the opening quote is gone before. -/
theorem readText_escape (t : String) (s : Input) :
    readText ((t.toList.flatMap escape).map some ++ some '"' :: s) = some (some t, s) := by
  rw [readText, readPieces_flatMap_escape]
  simp [spell?_map_pieceOf]

/-! ## Containers -/

theorem skipSpace_cons {c : Char} (h : isSpace (some c) = false) (s : Input) :
    skipSpace (some c :: s) = some c :: s := by
  rw [skipSpace, List.dropWhile_cons, h]
  simp

/-- Items are read one after another if each is read whatever follows it. -/
theorem readItems_append {α : Type} (item : Input → Option (α × Input)) (write : α → Input)
    (closing : Char) (hcomma : closing ≠ ',') (hspace : isSpace (some closing) = false)
    (x : α) (xs : List α) (hread : ∀ y ∈ x :: xs, ∀ s, item (write y ++ s) = some (y, s))
    (fuel : Nat) (hfuel : xs.length < fuel) (s : Input) :
    readItems item closing fuel
        (write x ++ ((xs.flatMap fun y => some ',' :: write y) ++ some closing :: s))
      = some (x :: xs, s) := by
  induction xs generalizing x fuel with
  | nil =>
    cases fuel with
    | zero => exact absurd hfuel (Nat.not_lt_zero _)
    | succ fuel =>
      have hx := hread x (List.mem_cons_self ..)
      rw [readItems, hx]
      simp [skipSpace_cons hspace, hcomma]
  | cons y ys ih =>
    cases fuel with
    | zero => exact absurd hfuel (Nat.not_lt_zero _)
    | succ fuel =>
      have hx := hread x (List.mem_cons_self ..)
      have hrest := ih y (fun z hz => hread z (List.mem_cons_of_mem _ hz)) fuel
        (by simpa using hfuel)
      have hsp : isSpace (some ',') = false := rfl
      rw [readItems, hx]
      simp only [List.flatMap_cons, List.cons_append, List.append_assoc, Option.bind_eq_bind,
        Option.bind_some, skipSpace_cons hsp, if_true]
      rw [hrest]
      rfl

theorem length_le_length_flatMap_cons {α β : Type} (b : β) (f : α → List β) (xs : List α) :
    xs.length ≤ (xs.flatMap fun x => b :: f x).length := by
  induction xs with
  | nil => exact Nat.le_refl 0
  | cons x xs ih =>
    simp only [List.flatMap_cons, List.length_append, List.length_cons]
    omega

/-- A container is read if each of its items is read whatever follows it, and none of them starts
with white space or with the closing bracket. -/
theorem readContainer_append {α : Type} (item : Input → Option (α × Input)) (write : α → Input)
    (closing : Char) (hcomma : closing ≠ ',') (hspace : isSpace (some closing) = false)
    (x : α) (xs : List α) (hread : ∀ y ∈ x :: xs, ∀ s, item (write y ++ s) = some (y, s))
    {c : Char} {w : Input} (hx : write x = some c :: w) (hc : isSpace (some c) = false)
    (hne : c ≠ closing) (s : Input) :
    readContainer item closing
        (write x ++ ((xs.flatMap fun y => some ',' :: write y) ++ some closing :: s))
      = some (x :: xs, s) := by
  have hlen := length_le_length_flatMap_cons (some ',') write xs
  have hitems := readItems_append item write closing hcomma hspace x xs hread
    (write x ++ ((xs.flatMap fun y => some ',' :: write y) ++ some closing :: s)).length
    (by simp only [List.length_append, List.length_cons]; omega) s
  rw [readContainer]
  rw [hx] at hitems ⊢
  simp only [List.cons_append] at hitems ⊢
  simp only [skipSpace_cons hc, Option.some.injEq, hne, if_false]
  exact hitems

/-! ## Values -/

/-- Values of texts and truth values that nest at most so many containers. -/
inductive Plain : (depth : Nat) → Json → Prop
  | null (d : Nat) : Plain d .null
  | bool (d : Nat) (b : Bool) : Plain d (.bool b)
  | text (d : Nat) (t : String) : Plain d (.text t)
  | array {d : Nat} {items : List Json} (h : ∀ v ∈ items, Plain d v) : Plain (d + 1) (.array items)
  | object {d : Nat} {members : List (String × Json)} (h : ∀ m ∈ members, Plain d m.2) :
    Plain (d + 1) (.object members)

theorem Plain.mono {d e : Nat} {j : Json} (h : Plain d j) (hde : d ≤ e) : Plain e j := by
  induction h generalizing e with
  | null => exact .null e
  | bool _ b => exact .bool e b
  | text _ t => exact .text e t
  | array _ ih =>
    obtain ⟨e, rfl⟩ : ∃ k, e = k + 1 := ⟨e - 1, by omega⟩
    exact .array fun v hv => ih v hv (by omega)
  | object _ ih =>
    obtain ⟨e, rfl⟩ : ∃ k, e = k + 1 := ⟨e - 1, by omega⟩
    exact .object fun m hm => ih m hm (by omega)

/-- The symbols of a value. -/
def symbols (j : Json) : Input := j.chars.map some

/-- The symbols of a name and its value. -/
def memberSymbols (m : String × Json) : Input := (quote m.1).map some ++ some ':' :: symbols m.2

theorem map_some_itemChars (vs : List Json) :
    (itemChars vs).map some
      = (vs.flatMap fun v => some ',' :: symbols v) ++ [some ']'] := by
  induction vs with
  | nil => rfl
  | cons v vs ih => simp [itemChars, ih, symbols]

theorem map_some_memberChars (ms : List (String × Json)) :
    (memberChars ms).map some
      = (ms.flatMap fun m => some ',' :: memberSymbols m) ++ [some '\x7d'] := by
  induction ms with
  | nil => rfl
  | cons m ms ih => simp [memberChars, ih, symbols, memberSymbols]

/-- A value starts with a character that is neither white space nor closes a container. -/
theorem Plain.symbols_eq_cons {d : Nat} {j : Json} (h : Plain d j) :
    ∃ c w, symbols j = some c :: w ∧ isSpace (some c) = false ∧ c ≠ ']' := by
  cases h with
  | null => exact ⟨'n', _, rfl, rfl, by decide⟩
  | bool _ b => cases b <;> exact ⟨_, _, rfl, rfl, by decide⟩
  | text _ t => exact ⟨'"', _, rfl, rfl, by decide⟩
  | @array _ items _ => cases items <;> exact ⟨'[', _, rfl, rfl, by decide⟩
  | @object _ members _ => cases members <;> exact ⟨'\x7b', _, rfl, rfl, by decide⟩

theorem readValue_eq_readScalar {c : Char} (hspace : isSpace (some c) = false) (ha : c ≠ '[')
    (ho : c ≠ '\x7b') (d : Nat) (s : Input) :
    readValue d (some c :: s) = readScalar (some c :: s) := by
  cases d <;> simp [readValue, skipSpace_cons hspace, ha, ho]

theorem readMember_memberSymbols {value : Input → Option (Json × Input)} {m : String × Json}
    (hvalue : ∀ s, value (symbols m.2 ++ s) = some (m.2, s)) (s : Input) :
    readMember value (memberSymbols m ++ s) = some (some m, s) := by
  have hname : readName (memberSymbols m ++ s) = some (some m.1, symbols m.2 ++ s) := by
    have hquote : isSpace (some '"') = false := rfl
    have hcolon : isSpace (some ':') = false := rfl
    rw [readName]
    simp only [memberSymbols, quote, List.map_append, List.map_cons, List.map_nil,
      List.cons_append, List.append_assoc, List.nil_append, skipSpace_cons hquote]
    rw [readText_escape]
    simp [skipSpace_cons hcolon]
  rw [readMember, hname]
  simp [hvalue]

theorem ofMembers_map_some (ms : List (String × Json)) : ofMembers (ms.map some) = .object ms := by
  have h : (ms.map some).mapM id = some ms := by
    induction ms with
    | nil => rfl
    | cons m ms ih => simp [ih]
  rw [ofMembers, h]

/-- **What is written is read back**, whatever follows it. -/
theorem readValue_symbols {d : Nat} {j : Json} (h : Plain d j) (s : Input) :
    readValue d (symbols j ++ s) = some (j, s) := by
  induction h generalizing s with
  | null d =>
    rw [show symbols .null ++ s = some 'n' :: some 'u' :: some 'l' :: some 'l' :: s from rfl,
      readValue_eq_readScalar rfl (by decide) (by decide)]
    simp [readScalar, readWord]
  | bool d b =>
    cases b with
    | true =>
      rw [show symbols (.bool true) ++ s
          = some 't' :: some 'r' :: some 'u' :: some 'e' :: s from rfl,
        readValue_eq_readScalar rfl (by decide) (by decide)]
      simp [readScalar, readWord]
    | false =>
      rw [show symbols (.bool false) ++ s
          = some 'f' :: some 'a' :: some 'l' :: some 's' :: some 'e' :: s from rfl,
        readValue_eq_readScalar rfl (by decide) (by decide)]
      simp [readScalar, readWord]
  | text d t =>
    have hsymbols : symbols (.text t) ++ s
        = some '"' :: ((t.toList.flatMap escape).map some ++ some '"' :: s) := by
      simp [symbols, chars, quote]
    rw [hsymbols, readValue_eq_readScalar rfl (by decide) (by decide), readScalar, readText_escape]
    rfl
  | @array d items h ih =>
    have hopen : isSpace (some '[') = false := rfl
    cases items with
    | nil => simp [symbols, chars, readValue, skipSpace, readContainer, isSpace]
    | cons v vs =>
      obtain ⟨c, w, hv, hc, hne⟩ := (h v (List.mem_cons_self ..)).symbols_eq_cons
      have hitems := readContainer_append (readValue d) symbols ']' (by decide) rfl v vs ih hv hc
        hne s
      have hsymbols : symbols (.array (v :: vs)) ++ s = some '[' :: (symbols v
          ++ ((vs.flatMap fun v => some ',' :: symbols v) ++ some ']' :: s)) := by
        rw [symbols, chars, List.map_append, map_some_itemChars]
        simp [symbols]
      rw [hsymbols, readValue, skipSpace_cons hopen]
      simp [hitems]
  | @object d members h ih =>
    have hopen : isSpace (some '\x7b') = false := rfl
    cases members with
    | nil => simp [symbols, chars, readValue, skipSpace, readContainer, isSpace, ofMembers]
    | cons m ms =>
      -- the items of an object are members that may be missing, of which none is
      have hread : ∀ o ∈ some m :: ms.map some, ∀ r,
          readMember (readValue d) (o.elim [] memberSymbols ++ r) = some (o, r) := by
        intro o ho r
        obtain ⟨m', hm', rfl⟩ := List.mem_map.1 (show o ∈ (m :: ms).map some from ho)
        exact readMember_memberSymbols (ih m' hm') r
      have hitems := readContainer_append (readMember (readValue d))
        (fun o => o.elim [] memberSymbols) '\x7d' (by decide) rfl (some m) (ms.map some) hread
        (c := '"') rfl rfl (by decide) s
      have hsymbols : symbols (.object (m :: ms)) ++ s = some '\x7b' :: (memberSymbols m
          ++ ((ms.flatMap fun m => some ',' :: memberSymbols m) ++ some '\x7d' :: s)) := by
        rw [symbols, chars, List.map_append, map_some_memberChars]
        simp [symbols, memberSymbols]
      rw [hsymbols, readValue, skipSpace_cons hopen]
      simp only [List.flatMap_map, Option.elim] at hitems
      simp [hitems, ← List.map_cons, ofMembers_map_some]

/-- The bytes of the text of a value spell it. -/
theorem ofBytes?_render {j : Json} (h : Plain maxDepth j) :
    ofBytes? (Bytes.ofText j.render) = some j := by
  have hread := readValue_symbols h []
  rw [List.append_nil, symbols] at hread
  rw [ofBytes?, ofInput?, Utf8.decode_ofText, render, String.toList_ofList, hread]
  rfl

end CandyDrop.Json
