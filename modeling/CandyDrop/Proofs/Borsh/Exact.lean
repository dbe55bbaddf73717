import CandyDrop.Proofs.Machine.Layout

/-!
# What a decoder accepts

That a decoder takes back what was encoded says nothing about other bytes. `Accepts d form` says
everything: the decoder `d` takes bytes off the front of an input if and only if they are a form of
the value that it gives. A value can have more than one form, if the decoder skips some bytes. Each
decoder has its lemma, and those of a record follow by `Accepts.bind`, one for each part; a decoder
whose values have one form each, their encoding, is `Exact`.
-/

namespace CandyDrop

namespace Bytes

theorem ofLittleEndian_lt (bs : Bytes) : ofLittleEndian bs < 256 ^ bs.length := by
  induction bs with
  | nil => exact Nat.one_pos
  | cons b bs ih =>
    have hb : b.toNat < 256 := b.toNat_lt
    rw [ofLittleEndian, List.length_cons, Nat.pow_succ]
    omega

theorem littleEndian_ofLittleEndian (bs : Bytes) :
    littleEndian bs.length (ofLittleEndian bs) = bs := by
  induction bs with
  | nil => rfl
  | cons b bs ih =>
    have hb : b.toNat < 256 := b.toNat_lt
    have hdiv : (b.toNat + 256 * ofLittleEndian bs) / 256 = ofLittleEndian bs := by omega
    have hmod : UInt8.ofNat (b.toNat + 256 * ofLittleEndian bs) = b := by
      apply UInt8.toNat_inj.1
      rw [UInt8.toNat_ofNat']
      omega
    rw [List.length_cons, ofLittleEndian, littleEndian, hdiv, hmod, ih]

theorem toText?_eq_some_iff {bs : Bytes} {s : String} : toText? bs = some s ↔ bs = ofText s := by
  constructor
  · intro h
    rw [toText?, String.fromUTF8?] at h
    split at h
    · cases h
      rfl
    · cases h
  · rintro rfl
    exact toText?_ofText s

end Bytes

namespace Borsh.Decoder

variable {α β : Type} {d : Decoder α} {form form' : α → Bytes → Prop} {encode : α → Bytes}

/-- The decoder takes these bytes off the front of an input for this value if and only if they are a
form of it. -/
def Accepts (d : Decoder α) (form : α → Bytes → Prop) : Prop :=
  ∀ input x rest, d input = some (x, rest) ↔ ∃ bs, form x bs ∧ input = bs ++ rest

/-- The only form of a value is its encoding. -/
def Exact (d : Decoder α) (encode : α → Bytes) : Prop := d.Accepts fun x bs => bs = encode x

theorem Accepts.congr (h : d.Accepts form) (hform : ∀ x bs, form x bs ↔ form' x bs) :
    d.Accepts form' := by
  intro input x rest
  simp only [h input x rest, hform]

/-- What a decoder says of whole inputs. -/
theorem Accepts.exists_iff (h : d.Accepts form) {input : Bytes} {x : α} :
    (d input).map (·.1) = some x ↔ ∃ bs rest, form x bs ∧ input = bs ++ rest := by
  rw [Option.map_eq_some_iff]
  constructor
  · rintro ⟨⟨y, rest⟩, hread, rfl⟩
    obtain ⟨bs, hbs, hinput⟩ := (h input y rest).1 hread
    exact ⟨bs, rest, hbs, hinput⟩
  · rintro ⟨bs, rest, hbs, hinput⟩
    exact ⟨(x, rest), (h input x rest).2 ⟨bs, hbs, hinput⟩, rfl⟩

theorem accepts_pure (x : α) : (pure x : Decoder α).Accepts fun y bs => y = x ∧ bs = [] := by
  intro input y rest
  show some (x, input) = some (y, rest) ↔ _
  constructor
  · intro h
    cases h
    exact ⟨[], ⟨rfl, rfl⟩, rfl⟩
  · rintro ⟨_, ⟨rfl, rfl⟩, rfl⟩
    rfl

theorem accepts_failure : (failure : Decoder α).Accepts fun _ _ => False := by
  intro input x rest
  show none = some (x, rest) ↔ _
  simp

/-- The form of two parts, of which the second one may depend on the first. -/
theorem Accepts.bind {f : α → Decoder β} {next : α → β → Bytes → Prop} (h : d.Accepts form)
    (hf : ∀ x, (f x).Accepts (next x)) :
    (d >>= f).Accepts fun y bs => ∃ x cs ds, form x cs ∧ next x y ds ∧ bs = cs ++ ds := by
  intro input y rest
  show (d input).bind (fun r => f r.1 r.2) = some (y, rest) ↔ _
  rw [Option.bind_eq_some_iff]
  constructor
  · rintro ⟨⟨x, middle⟩, hread, hnext⟩
    obtain ⟨cs, hcs, rfl⟩ := (h input x middle).1 hread
    obtain ⟨ds, hds, rfl⟩ := (hf x middle y rest).1 hnext
    exact ⟨cs ++ ds, ⟨x, cs, ds, hcs, hds, rfl⟩, (List.append_assoc ..).symm⟩
  · rintro ⟨_, ⟨x, cs, ds, hcs, hds, rfl⟩, rfl⟩
    refine ⟨(x, ds ++ rest), (h _ x _).2 ⟨cs, hcs, List.append_assoc ..⟩, ?_⟩
    exact (hf x _ y rest).2 ⟨ds, hds, rfl⟩

/-- The form of two parts, of which the first one has one form. -/
theorem Exact.bind {f : α → Decoder β} {next : α → β → Bytes → Prop} (h : d.Exact encode)
    (hf : ∀ x, (f x).Accepts (next x)) :
    (d >>= f).Accepts fun y bs => ∃ x cs, next x y cs ∧ bs = encode x ++ cs := by
  refine (Accepts.bind h hf).congr fun y bs => ?_
  constructor
  · rintro ⟨x, _, cs, rfl, hcs, rfl⟩
    exact ⟨x, cs, hcs, rfl⟩
  · rintro ⟨x, cs, hcs, rfl⟩
    exact ⟨x, _, cs, rfl, hcs, rfl⟩

/-- The form of a value that is made from another one. -/
theorem Accepts.map (h : d.Accepts form) (f : α → β) :
    (f <$> d).Accepts fun y bs => ∃ x, form x bs ∧ y = f x := by
  refine (h.bind fun x => accepts_pure (f x)).congr fun y bs => ?_
  constructor
  · rintro ⟨x, cs, _, hcs, ⟨rfl, rfl⟩, rfl⟩
    exact ⟨x, (List.append_nil cs).symm ▸ hcs, rfl⟩
  · rintro ⟨x, hbs, rfl⟩
    exact ⟨x, bs, [], hbs, ⟨rfl, rfl⟩, (List.append_nil bs).symm⟩

/-! ## Parts of any layout -/

theorem accepts_take (n : Nat) : (take n).Accepts fun x bs => bs = x ∧ x.length = n := by
  intro input x rest
  rw [take]
  constructor
  · intro h
    split at h
    · next hn =>
      cases h
      exact ⟨_, ⟨rfl, List.length_take_of_le hn⟩, (List.take_append_drop n input).symm⟩
    · cases h
  · rintro ⟨_, ⟨rfl, rfl⟩, rfl⟩
    simp

theorem accepts_number (width : Nat) :
    (number width).Accepts fun n bs => n < 256 ^ width ∧ bs = Bytes.littleEndian width n := by
  refine ((accepts_take width).map Bytes.ofLittleEndian).congr fun n bs => ?_
  constructor
  · rintro ⟨_, ⟨rfl, rfl⟩, rfl⟩
    exact ⟨Bytes.ofLittleEndian_lt bs, (Bytes.littleEndian_ofLittleEndian bs).symm⟩
  · rintro ⟨hn, rfl⟩
    refine ⟨_, ⟨rfl, Bytes.length_littleEndian ..⟩, ?_⟩
    rw [Bytes.ofLittleEndian_littleEndian, Nat.mod_eq_of_lt hn]

/-- Words of a width are all numbers below a bound. -/
theorem exact_word {width : Nat} {ofNat : Nat → α} {toNat : α → Nat}
    (hlt : ∀ x, toNat x < 256 ^ width) (hleft : ∀ x, ofNat (toNat x) = x)
    (hright : ∀ n < 256 ^ width, toNat (ofNat n) = n) :
    (ofNat <$> number width).Exact fun x => Bytes.littleEndian width (toNat x) := by
  refine ((accepts_number width).map ofNat).congr fun x bs => ?_
  constructor
  · rintro ⟨n, ⟨hn, rfl⟩, rfl⟩
    exact congrArg _ (hright n hn).symm
  · rintro rfl
    exact ⟨toNat x, ⟨hlt x, rfl⟩, (hleft x).symm⟩

theorem exact_u16 : u16.Exact Borsh.u16 :=
  exact_word UInt16.toNat_lt (fun _ => UInt16.ofNat_toNat) fun _ hn => UInt16.toNat_ofNat_of_lt' hn

theorem exact_u64 : u64.Exact Borsh.u64 :=
  exact_word UInt64.toNat_lt (fun _ => UInt64.ofNat_toNat) fun _ hn => UInt64.toNat_ofNat_of_lt' hn

theorem exact_u8 : u8.Exact Borsh.u8 := by
  have hword : u8.Exact fun x => Bytes.littleEndian 1 x.toNat :=
    exact_word UInt8.toNat_lt (fun _ => UInt8.ofNat_toNat) fun _ hn => UInt8.toNat_ofNat_of_lt' hn
  refine hword.congr fun x bs => ?_
  simp only [Bytes.littleEndian, UInt8.ofNat_toNat, Borsh.u8]

theorem accepts_u32 : u32.Accepts fun n bs => n < 2 ^ 32 ∧ bs = Borsh.u32 n := accepts_number 4

/-- A value that a byte stands for. -/
theorem exact_byte {f : UInt8 → Decoder α} {byte : α → UInt8}
    (hf : ∀ b, (f b).Accepts fun y bs => b = byte y ∧ bs = []) :
    (u8 >>= f).Exact fun y => [byte y] := by
  refine (exact_u8.bind hf).congr fun y bs => ?_
  constructor
  · rintro ⟨_, _, ⟨rfl, rfl⟩, rfl⟩
    rfl
  · rintro rfl
    exact ⟨_, [], ⟨rfl, rfl⟩, rfl⟩

theorem exact_bool : bool.Exact Borsh.bool := by
  refine exact_byte fun b => ?_
  split
  · exact (accepts_pure false).congr fun y bs => by cases y <;> simp
  · exact (accepts_pure true).congr fun y bs => by cases y <;> simp
  · next h0 h1 =>
    refine accepts_failure.congr fun y bs => iff_of_false id ?_
    cases y with
    | false => exact fun h => h0 h.1
    | true => exact fun h => h1 h.1

/-- A value that some bytes stand for. -/
theorem accepts_take_bind {n : Nat} {f : Bytes → Decoder α} (value? : Bytes → Option α)
    (hf : ∀ bs, (f bs).Accepts fun y cs => value? bs = some y ∧ cs = []) :
    (take n >>= f).Accepts fun y bs => value? bs = some y ∧ bs.length = n := by
  refine ((accepts_take n).bind hf).congr fun y bs => ?_
  constructor
  · rintro ⟨_, cs, _, ⟨rfl, hlen⟩, ⟨hy, rfl⟩, rfl⟩
    rw [List.append_nil]
    exact ⟨hy, hlen⟩
  · rintro ⟨hy, hlen⟩
    exact ⟨bs, bs, [], ⟨rfl, hlen⟩, ⟨hy, rfl⟩, (List.append_nil _).symm⟩

theorem exact_address : address.Exact Borsh.address := by
  refine (accepts_take_bind Address.ofBytes? fun bs => ?_).congr fun a bs => ?_
  · split
    · next a ha =>
      rw [ha]
      exact (accepts_pure a).congr fun y cs => by simp [eq_comm]
    · next ha =>
      rw [ha]
      exact accepts_failure.congr fun y cs => by simp
  · constructor
    · rintro ⟨ha, hlen⟩
      rw [Address.ofBytes?, dif_pos hlen] at ha
      cases ha
      rfl
    · rintro rfl
      exact ⟨a.ofBytes?_bytes, a.length_bytes⟩

theorem accepts_text :
    text.Accepts fun s bs => Bytes.sizeOfText s < 2 ^ 32 ∧ bs = Borsh.text s := by
  refine Accepts.congr
    (accepts_u32.bind fun n => accepts_take_bind Bytes.toText? fun bs => ?_) fun s bs => ?_
  · split
    · next s hs =>
      rw [hs]
      exact (accepts_pure s).congr fun y cs => by simp [eq_comm]
    · next hs =>
      rw [hs]
      exact accepts_failure.congr fun y cs => by simp
  · simp only [Bytes.toText?_eq_some_iff]
    constructor
    · rintro ⟨_, _, _, ⟨hn, rfl⟩, ⟨rfl, rfl⟩, rfl⟩
      rw [Bytes.length_ofText] at hn ⊢
      exact ⟨hn, rfl⟩
    · rintro ⟨hn, rfl⟩
      exact ⟨_, _, _, ⟨hn, rfl⟩, ⟨rfl, Bytes.length_ofText s⟩, rfl⟩

theorem accepts_replicate (h : d.Exact encode) (n : Nat) :
    (replicate d n).Accepts fun xs bs => xs.length = n ∧ bs = xs.flatMap encode := by
  induction n with
  | zero =>
    refine (accepts_pure []).congr fun xs bs => ?_
    rw [List.length_eq_zero_iff]
    constructor
    · rintro ⟨rfl, rfl⟩
      exact ⟨rfl, rfl⟩
    · rintro ⟨rfl, rfl⟩
      exact ⟨rfl, rfl⟩
  | succ n ih =>
    refine (h.bind fun x => ih.bind fun xs => accepts_pure (x :: xs)).congr fun ys bs => ?_
    constructor
    · rintro ⟨x, _, ⟨xs, _, _, ⟨hlen, rfl⟩, ⟨rfl, rfl⟩, rfl⟩, rfl⟩
      rw [List.append_nil, List.flatMap_cons]
      exact ⟨congrArg (· + 1) hlen, rfl⟩
    · rintro ⟨hlen, rfl⟩
      obtain ⟨x, xs, rfl⟩ := List.exists_cons_of_length_eq_add_one hlen
      refine ⟨x, _, ⟨xs, _, [], ⟨Nat.succ.inj hlen, rfl⟩, ⟨rfl, rfl⟩, rfl⟩, ?_⟩
      rw [List.append_nil, List.flatMap_cons]

theorem accepts_list (h : d.Exact encode) :
    (list d).Accepts fun xs bs => xs.length < 2 ^ 32 ∧ bs = Borsh.list encode xs := by
  refine (accepts_u32.bind (accepts_replicate h)).congr fun xs bs => ?_
  constructor
  · rintro ⟨_, _, _, ⟨hn, rfl⟩, ⟨rfl, rfl⟩, rfl⟩
    exact ⟨hn, rfl⟩
  · rintro ⟨hn, rfl⟩
    exact ⟨_, _, _, ⟨hn, rfl⟩, ⟨rfl, rfl⟩, rfl⟩

/-- The values that an optional part can have are those of the part. -/
theorem accepts_option {valid : α → Prop} (h : d.Accepts fun x bs => valid x ∧ bs = encode x) :
    (option d).Accepts fun x bs => (∀ y ∈ x, valid y) ∧ bs = Borsh.option encode x := by
  have hvalue : ∀ b : Bool, Accepts (if b then some <$> d else pure none) fun x bs =>
      b = x.isSome ∧ (∀ y ∈ x, valid y) ∧ Borsh.bool b ++ bs = Borsh.option encode x := by
    intro b
    cases b with
    | false =>
      refine (accepts_pure none).congr fun x bs => ?_
      cases x <;> simp [Borsh.bool, Borsh.option]
    | true =>
      refine (h.map some).congr fun x bs => ?_
      cases x <;> simp [Borsh.bool, Borsh.option]
  refine (exact_bool.bind hvalue).congr fun x bs => ?_
  constructor
  · rintro ⟨_, _, ⟨-, hx, hbs⟩, rfl⟩
    exact ⟨hx, hbs⟩
  · rintro ⟨hx, rfl⟩
    cases x with
    | none => exact ⟨false, [], ⟨rfl, hx, rfl⟩, rfl⟩
    | some y => exact ⟨true, encode y, ⟨rfl, hx, rfl⟩, rfl⟩

end Borsh.Decoder

end CandyDrop
