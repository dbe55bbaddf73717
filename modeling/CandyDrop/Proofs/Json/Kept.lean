import CandyDrop.Proofs.Json.Record

/-!
# What is kept of a value is read like the value

To keep a value puts the members of its objects into ascending order and drops repeated ones
(`Json.keep?`). A record is read by the names of its fields and refuses a field that is there twice,
so what is read of a value is also read of what is kept of it (`Json.ReadsKept`). This holds of the
readers of single values, and it carries over to lists (`ReadsKept.toList?`) and, field by field
(`Fields.ReadsKept`), to records (`ReadsKept.record`).

A value that has the form in which values are kept is kept as it is (`Json.keep?_of_isKept`).
-/

namespace CandyDrop.Json

/-! ## Values in the kept form -/

theorem insertMember_of_precedes {k : String} {ms : List (String × Json)} (h : precedes k ms = true)
    (v : Json) : insertMember k v ms = (k, v) :: ms := by
  cases ms with
  | nil => rfl
  | cons m ms =>
    simp only [precedes, List.all_cons, Bool.and_eq_true, decide_eq_true_eq] at h
    rw [insertMember, if_pos h.1]

mutual

/-- What has the form in which values are kept is kept as it is. -/
theorem keep?_of_isKept {v : Json} (h : isKept v = true) : keep? v = some v := by
  cases v with
  | null => rfl
  | bool b => rfl
  | number n => exact if_pos h
  | text s => rfl
  | array items => rw [keep?, keepItems?_of_itemsKept h, Option.map_some]
  | object members => rw [keep?, keepMembers?_of_membersKept h, Option.map_some]
  | unreadable => cases h

theorem keepItems?_of_itemsKept {vs : List Json} (h : itemsKept vs = true) :
    keepItems? vs = some vs := by
  cases vs with
  | nil => rfl
  | cons v vs =>
    rw [itemsKept, Bool.and_eq_true] at h
    rw [keepItems?, keep?_of_isKept h.1, keepItems?_of_itemsKept h.2]
    rfl

theorem keepMembers?_of_membersKept {ms : List (String × Json)} (h : membersKept ms = true) :
    keepMembers? ms = some ms := by
  match ms with
  | [] => rfl
  | (k, v) :: ms =>
    rw [membersKept, Bool.and_eq_true, Bool.and_eq_true] at h
    obtain ⟨⟨hv, hk⟩, hms⟩ := h
    rw [keepMembers?, keep?_of_isKept hv, keepMembers?_of_membersKept hms]
    exact congrArg some (insertMember_of_precedes hk v)

end

theorem eq_of_keep?_number {n : Number} {v : Json} (h : keep? (.number n) = some v) :
    v = .number n := by
  rw [keep?] at h
  split at h
  · exact (Option.some.inj h).symm
  · cases h

/-- Only `null` is kept as `null`. -/
theorem keep?_eq_null {j : Json} (h : keep? j = some .null) : j = .null := by
  cases j with
  | null => rfl
  | number n => cases eq_of_keep?_number h
  | array items =>
    obtain ⟨vs, -, h⟩ := Option.map_eq_some_iff.1 h
    cases h
  | object members =>
    obtain ⟨ms, -, h⟩ := Option.map_eq_some_iff.1 h
    cases h
  | _ => cases h

/-- What is kept of a value is kept as it is. -/
theorem keep?_of_keep? {j v : Json} (h : keep? j = some v) : keep? v = some v :=
  keep?_of_isKept (isKept_of_keep? h)

/-! ## Values that can be kept -/

theorem isSome_keep?_array {vs : List Json} (h : ∀ v ∈ vs, (keep? v).isSome = true) :
    (keep? (.array vs)).isSome = true := by
  rw [keep?, Option.isSome_map]
  induction vs with
  | nil => rfl
  | cons v vs ih =>
    rw [List.forall_mem_cons] at h
    obtain ⟨u, hu⟩ := Option.isSome_iff_exists.1 h.1
    obtain ⟨us, hus⟩ := Option.isSome_iff_exists.1 (ih h.2)
    rw [keepItems?, hu, hus]
    rfl

theorem isSome_keep?_object {ms : List (String × Json)} (h : ∀ m ∈ ms, (keep? m.2).isSome = true) :
    (keep? (.object ms)).isSome = true := by
  rw [keep?, Option.isSome_map]
  induction ms with
  | nil => rfl
  | cons m ms ih =>
    rw [List.forall_mem_cons] at h
    obtain ⟨u, hu⟩ := Option.isSome_iff_exists.1 h.1
    obtain ⟨us, hus⟩ := Option.isSome_iff_exists.1 (ih h.2)
    rw [keepMembers?, hu, hus]
    rfl

theorem isSome_keep?_ofOption {α : Type} {write : α → Json} {o : Option α}
    (h : ∀ x ∈ o, (keep? (write x)).isSome = true) : (keep? (ofOption write o)).isSome = true := by
  cases o with
  | none => rfl
  | some x => exact h x rfl

theorem isSome_keep?_ofNat {n : Nat} (h : n < UInt64.size) : (keep? (ofNat n)).isSome = true := by
  have hkept : Number.isKept (.integer n) = true := by
    rw [Number.isKept, decide_eq_true_eq]
    omega
  rw [ofNat, keep?, if_pos hkept]
  rfl

theorem isSome_keep?_ofReal (x : Binary64) : (keep? (ofReal x)).isSome = true := by
  rw [ofReal]
  split
  · next hfinite =>
    have hkept : Number.isKept (.real x) = true := hfinite
    rw [keep?, if_pos hkept]
    rfl
  · rfl

/-! ## Members -/

theorem keepItems?_cons_eq_some_iff {j : Json} {js us : List Json} :
    keepItems? (j :: js) = some us ↔
      ∃ v vs, keep? j = some v ∧ keepItems? js = some vs ∧ us = v :: vs := by
  simp only [keepItems?, Option.bind_eq_bind, Option.pure_def, Option.bind_eq_some_iff,
    Option.some.injEq, ← exists_and_left, eq_comm (a := us)]

theorem keepMembers?_cons_eq_some_iff {k : String} {j : Json} {js us : List (String × Json)} :
    keepMembers? ((k, j) :: js) = some us ↔
      ∃ v vs, keep? j = some v ∧ keepMembers? js = some vs ∧ us = insertMember k v vs := by
  simp only [keepMembers?, Option.bind_eq_bind, Option.pure_def, Option.bind_eq_some_iff,
    Option.some.injEq, ← exists_and_left, eq_comm (a := us)]

variable {a : String} {ms vs : List (String × Json)}

/-- The number of members of a name. -/
def occurrences (a : String) (ms : List (String × Json)) : Nat :=
  (ms.filter fun m => m.1 == a).length

theorem occurrences_eq_zero_iff : occurrences a ms = 0 ↔ ms.lookup a = none := by
  rw [occurrences, List.length_eq_zero_iff, List.filter_eq_nil_iff, List.lookup_eq_none_iff]
  simp only [beq_iff_eq, bne_iff_ne, ne_comm, ne_eq]

theorem occurrences_cons_self (a : String) (v : Json) (ms : List (String × Json)) :
    occurrences a ((a, v) :: ms) = occurrences a ms + 1 := by
  rw [occurrences, List.filter_cons_of_pos (by simp), List.length_cons, occurrences]

theorem occurrences_cons_of_ne {k : String} (h : k ≠ a) (v : Json) (ms : List (String × Json)) :
    occurrences a ((k, v) :: ms) = occurrences a ms := by
  rw [occurrences, List.filter_cons_of_neg (by simpa using h), occurrences]

theorem repeatsKnown_eq_false_iff {names : List String} :
    repeatsKnown names ms = false ↔ ∀ name ∈ names, occurrences name ms ≤ 1 := by
  simp only [repeatsKnown, occurrences, List.any_eq_false, decide_eq_true_eq, Nat.not_lt]

theorem lookup_of_precedes (h : precedes a ms = true) : ms.lookup a = none := by
  rw [List.lookup_eq_none_iff]
  intro m hm
  have hlt : a < m.1 := of_decide_eq_true (List.all_eq_true.1 h m hm)
  refine bne_iff_ne.2 fun heq => ?_
  rw [← heq] at hlt
  exact String.lt_irrefl a hlt

/-- No name stands twice among kept members. -/
theorem occurrences_le_one (h : membersKept ms = true) : occurrences a ms ≤ 1 := by
  induction ms with
  | nil => exact Nat.zero_le 1
  | cons m ms ih =>
    obtain ⟨k, v⟩ := m
    rw [membersKept, Bool.and_eq_true, Bool.and_eq_true] at h
    obtain ⟨⟨-, hk⟩, hms⟩ := h
    by_cases hka : k = a
    · subst hka
      have hzero : occurrences k ms = 0 := occurrences_eq_zero_iff.2 (lookup_of_precedes hk)
      exact Nat.le_of_eq (by rw [occurrences_cons_self, hzero])
    · rw [occurrences_cons_of_ne hka]
      exact ih hms

theorem lookup_insertMember_of_ne {k : String} (h : a ≠ k) (v : Json) :
    (insertMember k v ms).lookup a = ms.lookup a := by
  induction ms with
  | nil => rw [insertMember, List.lookup_cons, beq_eq_false_iff_ne.2 h]
  | cons m ms ih =>
    obtain ⟨b, w⟩ := m
    rw [insertMember]
    split
    · rw [List.lookup_cons, beq_eq_false_iff_ne.2 h]
    · split
      · rfl
      · rw [List.lookup_cons, List.lookup_cons, ih]

theorem lookup_insertMember_self {k : String} (h : ms.lookup k = none) (v : Json) :
    (insertMember k v ms).lookup k = some v := by
  induction ms with
  | nil => rw [insertMember, List.lookup_cons_self]
  | cons m ms ih =>
    obtain ⟨b, w⟩ := m
    rw [List.lookup_cons] at h
    split at h
    · cases h
    · next hne =>
      rw [insertMember]
      split
      · rw [List.lookup_cons_self]
      · rw [if_neg (beq_eq_false_iff_ne.1 hne), List.lookup_cons, hne]
        exact ih h

/-- A name that stands at most once among the members has what is kept of its value. -/
theorem lookup_keepMembers? (h : keepMembers? ms = some vs) (hone : occurrences a ms ≤ 1) :
    Option.Rel (fun j v => keep? j = some v) (ms.lookup a) (vs.lookup a) := by
  induction ms generalizing vs with
  | nil => cases h; exact .none
  | cons m ms ih =>
    obtain ⟨k, j⟩ := m
    obtain ⟨v, us, hv, hus, rfl⟩ := keepMembers?_cons_eq_some_iff.1 h
    by_cases hka : k = a
    · subst hka
      rw [occurrences_cons_self] at hone
      have hnone : ms.lookup k = none := occurrences_eq_zero_iff.1 (by omega)
      have hrest := ih hus (by omega)
      rw [hnone] at hrest
      have hus' : us.lookup k = none := by
        generalize us.lookup k = o at hrest
        cases hrest
        rfl
      rw [List.lookup_cons_self, lookup_insertMember_self hus']
      exact .some hv
    · rw [occurrences_cons_of_ne hka] at hone
      rw [lookup_insertMember_of_ne (Ne.symm hka), List.lookup_cons,
        beq_eq_false_iff_ne.2 (Ne.symm hka)]
      exact ih hus hone

/-- A field of an array has what is kept of its value. -/
theorem lookup_zip_keepItems? {js us : List Json} (h : keepItems? js = some us)
    (names : List String) :
    Option.Rel (fun j v => keep? j = some v) ((names.zip js).lookup a) ((names.zip us).lookup a) := by
  induction js generalizing us names with
  | nil =>
    cases h
    rw [List.zip_nil_right]
    exact .none
  | cons j js ih =>
    obtain ⟨v, us, hv, hus, rfl⟩ := keepItems?_cons_eq_some_iff.1 h
    cases names with
    | nil => exact .none
    | cons name names =>
      rw [List.zip_cons_cons, List.zip_cons_cons, List.lookup_cons, List.lookup_cons]
      split
      · exact .some hv
      · exact ih hus names

theorem length_keepItems? {js us : List Json} (h : keepItems? js = some us) :
    us.length = js.length := by
  induction js generalizing us with
  | nil => cases h; rfl
  | cons j js ih =>
    obtain ⟨v, us, -, hus, rfl⟩ := keepItems?_cons_eq_some_iff.1 h
    rw [List.length_cons, List.length_cons, ih hus]

/-! ## Readers -/

variable {α β : Type}

/-- What is read of a value is also read of what is kept of it. -/
def ReadsKept (read : Json → Option α) : Prop :=
  ∀ ⦃j v : Json⦄ ⦃x : α⦄, keep? j = some v → read j = some x → read v = some x

namespace ReadsKept

theorem bind {read : Json → Option α} (h : ReadsKept read) (f : α → Option β) :
    ReadsKept fun j => (read j).bind f := by
  intro j v y hv hy
  obtain ⟨x, hx, hy⟩ := Option.bind_eq_some_iff.1 hy
  exact Option.bind_eq_some_iff.2 ⟨x, h hv hx, hy⟩

theorem toBool? : ReadsKept Json.toBool? := by
  intro j v x hv hx
  cases j with
  | bool b => cases hv; exact hx
  | _ => cases hx

theorem toText? : ReadsKept Json.toText? := by
  intro j v x hv hx
  cases j with
  | text s => cases hv; exact hx
  | _ => cases hx

theorem toInt? : ReadsKept Json.toInt? := by
  intro j v x hv hx
  cases j with
  | number n => rw [eq_of_keep?_number hv]; exact hx
  | _ => cases hx

theorem toReal? : ReadsKept Json.toReal? := by
  intro j v x hv hx
  cases j with
  | number n => rw [eq_of_keep?_number hv]; exact hx
  | _ => cases hx

theorem mapM {read : Json → Option α} (h : ReadsKept read) {js us : List Json} {xs : List α}
    (hus : keepItems? js = some us) (hxs : js.mapM read = some xs) : us.mapM read = some xs := by
  induction js generalizing us xs with
  | nil => cases hus; exact hxs
  | cons j js ih =>
    obtain ⟨u, us', hu, hus', rfl⟩ := keepItems?_cons_eq_some_iff.1 hus
    simp only [List.mapM_cons, Option.bind_eq_bind, Option.bind_eq_some_iff] at hxs ⊢
    obtain ⟨x, hx, xs, hxs, hcons⟩ := hxs
    exact ⟨x, h hu hx, xs, ih hus' hxs, hcons⟩

theorem toList? {read : Json → Option α} (h : ReadsKept read) : ReadsKept (Json.toList? read) := by
  intro j v xs hv hxs
  cases j with
  | array js =>
    obtain ⟨us, hus, rfl⟩ := Option.map_eq_some_iff.1 hv
    exact h.mapM hus hxs
  | _ => cases hxs

end ReadsKept

/-! ## Records -/

namespace Fields

variable {names : List String} {name : String} {read : Json → Option α} {fs gs : Fields} {x : α}

/-- The fields `gs` are what is kept of `fs`, as far as these names go. -/
structure Kept (names : List String) (fs gs : Fields) : Prop where
  mayOmit : gs.mayOmit = fs.mayOmit
  get? : ∀ name ∈ names, Option.Rel (fun j v => keep? j = some v) (fs.get? name) (gs.get? name)

namespace Kept

/-- A field is either missing from both or there in both. -/
theorem get?_cases (h : Kept names fs gs) (hname : name ∈ names) :
    (fs.get? name = none ∧ gs.get? name = none) ∨
      ∃ j v, fs.get? name = some j ∧ gs.get? name = some v ∧ keep? j = some v := by
  have hget := h.get? name hname
  generalize fs.get? name = o, gs.get? name = o' at hget
  cases hget with
  | none => exact .inl ⟨rfl, rfl⟩
  | some hv => exact .inr ⟨_, _, rfl, rfl, hv⟩

theorem required (h : Kept names fs gs) (hname : name ∈ names) (hread : Json.ReadsKept read)
    (hx : fs.required name read = some x) : gs.required name read = some x := by
  rw [Fields.required] at hx ⊢
  obtain ⟨hj, -⟩ | ⟨j, v, hj, hget, hv⟩ := h.get?_cases hname
  · rw [hj] at hx
    cases hx
  · rw [hj] at hx
    rw [hget]
    exact hread hv hx

theorem defaulted (h : Kept names fs gs) (hname : name ∈ names) (hread : Json.ReadsKept read)
    {value : α} (hx : fs.defaulted name value read = some x) :
    gs.defaulted name value read = some x := by
  rw [Fields.defaulted] at hx ⊢
  obtain ⟨hj, hget⟩ | ⟨j, v, hj, hget, hv⟩ := h.get?_cases hname
  · rw [hj] at hx
    rw [hget]
    exact hx
  · rw [hj] at hx
    rw [hget]
    exact hread hv hx

theorem optional (h : Kept names fs gs) (hname : name ∈ names) (hread : Json.ReadsKept read)
    {x : Option α} (hx : fs.optional name read = some x) : gs.optional name read = some x := by
  obtain ⟨hj, hget⟩ | ⟨j, v, hj, hget, hv⟩ := h.get?_cases hname
  · rw [Fields.optional, hj] at hx
    rw [Fields.optional, hget, h.mayOmit]
    exact hx
  · by_cases hnull : j = .null
    · subst hnull
      cases hv
      rw [optional_of_null hj] at hx
      rw [optional_of_null hget, hx]
    · have hnull' : v ≠ .null := fun heq => hnull (keep?_eq_null (heq ▸ hv))
      rw [optional_of_ne_null hj hnull] at hx
      rw [optional_of_ne_null hget hnull']
      obtain ⟨y, hy, rfl⟩ := Option.map_eq_some_iff.1 hx
      rw [hread hv hy, Option.map_some]

end Kept

/-- What is made of fields is also made of what is kept of them. -/
def ReadsKept (names : List String) (build : Fields → Option α) : Prop :=
  ∀ ⦃fs gs : Fields⦄ ⦃x : α⦄, Kept names fs gs → build fs = some x → build gs = some x

namespace ReadsKept

theorem pure (x : α) : ReadsKept names fun _ => some x := by
  intro _ _ _ _ h
  exact h

theorem bind {p : Fields → Option α} {q : α → Fields → Option β} (hp : ReadsKept names p)
    (hq : ∀ x, ReadsKept names (q x)) : ReadsKept names fun fs => p fs >>= fun x => q x fs := by
  intro fs gs y hkept hy
  obtain ⟨x, hx, hy⟩ := Option.bind_eq_some_iff.1 hy
  exact Option.bind_eq_some_iff.2 ⟨x, hp hkept hx, hq x hkept hy⟩

theorem required (h : Json.ReadsKept read) (hname : name ∈ names) :
    ReadsKept names fun fs => fs.required name read := by
  intro fs gs x hkept hx
  exact hkept.required hname h hx

theorem defaulted (h : Json.ReadsKept read) {value : α} (hname : name ∈ names) :
    ReadsKept names fun fs => fs.defaulted name value read := by
  intro fs gs x hkept hx
  exact hkept.defaulted hname h hx

theorem optional (h : Json.ReadsKept read) (hname : name ∈ names) :
    ReadsKept names fun fs => fs.optional name read := by
  intro fs gs x hkept hx
  exact hkept.optional hname h hx

end ReadsKept

end Fields

theorem fields?_of_keep? {j v : Json} {fs : Fields} {names : List String} {fills : Bool}
    (hv : keep? j = some v) (h : j.fields? names fills = some fs) :
    ∃ gs, v.fields? names fills = some gs ∧ Fields.Kept names fs gs := by
  cases j with
  | array js =>
    obtain ⟨us, hus, rfl⟩ := Option.map_eq_some_iff.1 hv
    rw [fields?] at h ⊢
    rw [length_keepItems? hus]
    split at h
    · cases h
    · next hlength =>
      cases h
      exact ⟨_, if_neg hlength, rfl, fun _ _ => lookup_zip_keepItems? hus names⟩
  | object ms =>
    obtain ⟨us, hus, rfl⟩ := Option.map_eq_some_iff.1 hv
    rw [fields?] at h ⊢
    split at h
    · cases h
    · next honce =>
      cases h
      have honce : ∀ name ∈ names, occurrences name ms ≤ 1 :=
        repeatsKnown_eq_false_iff.1 (Bool.eq_false_iff.2 honce)
      have honce' : repeatsKnown names us = false := repeatsKnown_eq_false_iff.2 fun _ _ =>
        occurrences_le_one (membersKept_of_keepMembers? hus)
      refine ⟨⟨us, true⟩, if_neg (Bool.eq_false_iff.1 honce'), rfl, fun name hname => ?_⟩
      exact lookup_keepMembers? hus (honce name hname)
  | _ => cases h

/-- A record is read from what is kept of a value. -/
theorem ReadsKept.record {names : List String} {fills : Bool} {build : Fields → Option α}
    (h : Fields.ReadsKept names build) :
    ReadsKept fun j => j.fields? names fills >>= build := by
  intro j v x hv hx
  obtain ⟨fs, hfs, hx⟩ := Option.bind_eq_some_iff.1 hx
  obtain ⟨gs, hgs, hkept⟩ := fields?_of_keep? hv hfs
  exact Option.bind_eq_some_iff.2 ⟨gs, hgs, h hkept hx⟩

end CandyDrop.Json
