/-!
# Tables in order of insertion

A table maps texts to values and remembers the order in which the keys came. A key that is written
again keeps its place and takes the new value. What a table means is `get?`; `insert` changes it at
one key (`get?_insert`) and `sorted`, which puts the keys in ascending order, nowhere
(`get?_sorted`).
-/

namespace CandyDrop

/-- Pairs of a key and a value, no key twice. -/
structure Table (α : Type) where
  entries : List (String × α)
  nodup_keys : (entries.map Prod.fst).Nodup

namespace Table

variable {α β : Type}

/-- The table without entries. -/
def empty : Table α := ⟨[], List.nodup_nil⟩

instance : Inhabited (Table α) := ⟨empty⟩

/-- The keys in order. -/
def keys (t : Table α) : List String := t.entries.map Prod.fst

/-- The number of entries. -/
def size (t : Table α) : Nat := t.entries.length

/-- The value of a key. -/
def get? (t : Table α) (k : String) : Option α := t.entries.lookup k

theorem lookup_cons_eq_ite (k a : String) (b : α) (es : List (String × α)) :
    ((a, b) :: es).lookup k = if k = a then some b else es.lookup k := by
  by_cases h : k = a
  · simp [h]
  · have hb : (k == a) = false := by simpa using h
    rw [List.lookup_cons, hb, if_neg h]

/-- The entries with `v` at the key `k`, which comes last if it is new. -/
def put (k : String) (v : α) : List (String × α) → List (String × α)
  | [] => [(k, v)]
  | e :: es => if e.1 = k then (k, v) :: es else e :: put k v es

theorem mem_map_fst_put {k j : String} {v : α} {es : List (String × α)} :
    j ∈ (put k v es).map Prod.fst ↔ j = k ∨ j ∈ es.map Prod.fst := by
  induction es with
  | nil => simp [put]
  | cons e es ih =>
    by_cases h : e.1 = k
    · simp [put, h]
    · simp only [put, h, if_false, List.map_cons, List.mem_cons, ih]
      constructor <;> rintro (h | h | h) <;> simp [h]

theorem nodup_put {k : String} {v : α} {es : List (String × α)}
    (h : (es.map Prod.fst).Nodup) : ((put k v es).map Prod.fst).Nodup := by
  induction es with
  | nil => simp [put]
  | cons e es ih =>
    rw [List.map_cons, List.nodup_cons] at h
    by_cases hk : e.1 = k
    · rw [put, if_pos hk, List.map_cons, List.nodup_cons, ← hk]
      exact h
    · rw [put, if_neg hk, List.map_cons, List.nodup_cons, mem_map_fst_put]
      exact ⟨fun hm => hm.elim hk h.1, ih h.2⟩

theorem lookup_put (k j : String) (v : α) (es : List (String × α)) :
    (put k v es).lookup j = if j = k then some v else es.lookup j := by
  induction es with
  | nil => simp only [put, lookup_cons_eq_ite]
  | cons e es ih =>
    obtain ⟨a, b⟩ := e
    by_cases hk : a = k
    · subst hk
      by_cases h : j = a <;> simp [put, lookup_cons_eq_ite, h]
    · by_cases h : j = a
      · subst h; simp [put, hk]
      · simp [put, lookup_cons_eq_ite, hk, h, ih]

/-- The table with `v` at the key `k`. -/
def insert (t : Table α) (k : String) (v : α) : Table α :=
  ⟨put k v t.entries, nodup_put t.nodup_keys⟩

theorem get?_insert (t : Table α) (k j : String) (v : α) :
    (t.insert k v).get? j = if j = k then some v else t.get? j := lookup_put ..

/-- The table of pairs of which later ones win. -/
def ofList (es : List (String × α)) : Table α := es.foldl (fun t e => t.insert e.1 e.2) empty

/-- Changes every value. -/
def map (f : α → β) (t : Table α) : Table β where
  entries := t.entries.map fun e => (e.1, f e.2)
  nodup_keys := by simpa [List.map_map, Function.comp_def] using t.nodup_keys

theorem get?_map (f : α → β) (t : Table α) (k : String) : (t.map f).get? k = (t.get? k).map f := by
  suffices h : ∀ es : List (String × α),
      (es.map fun e => (e.1, f e.2)).lookup k = (es.lookup k).map f from h t.entries
  intro es
  induction es with
  | nil => rfl
  | cons e es ih => obtain ⟨a, b⟩ := e; by_cases h : k = a <;> simp [lookup_cons_eq_ite, h, ih]

/-- Changes the value of one key, if it has one. -/
def modify (t : Table α) (k : String) (f : α → α) : Table α where
  entries := t.entries.map fun e => (e.1, if e.1 = k then f e.2 else e.2)
  nodup_keys := by simpa [List.map_map, Function.comp_def] using t.nodup_keys

theorem get?_modify (t : Table α) (k j : String) (f : α → α) :
    (t.modify k f).get? j = if j = k then (t.get? j).map f else t.get? j := by
  suffices h : ∀ es : List (String × α),
      (es.map fun e => (e.1, if e.1 = k then f e.2 else e.2)).lookup j
        = if j = k then (es.lookup j).map f else es.lookup j from h t.entries
  intro es
  induction es with
  | nil => simp
  | cons e es ih =>
    obtain ⟨a, b⟩ := e
    by_cases h : j = a
    · subst h; by_cases hk : j = k <;> simp [hk]
    · simp [lookup_cons_eq_ite, h, ih]

/-- Whether the key of one pair is not after that of another. -/
def keyLE (a b : String × α) : Bool := decide (a.1 ≤ b.1)

/-- The entries with the keys in ascending order of their characters. -/
def sorted (t : Table α) : Table α where
  entries := t.entries.mergeSort keyLE
  nodup_keys :=
    ((List.mergeSort_perm t.entries keyLE).map Prod.fst).nodup_iff.2 t.nodup_keys

theorem lookup_eq_some_iff {es : List (String × α)} (h : (es.map Prod.fst).Nodup) {k : String}
    {v : α} : es.lookup k = some v ↔ (k, v) ∈ es := by
  induction es with
  | nil => simp
  | cons e es ih =>
    obtain ⟨a, b⟩ := e
    rw [List.map_cons, List.nodup_cons] at h
    by_cases hk : k = a
    · subst hk
      simp only [lookup_cons_eq_ite, if_true, Option.some.injEq, List.mem_cons, Prod.mk.injEq,
        true_and]
      exact ⟨fun hv => .inl hv.symm,
        fun hm => hm.elim Eq.symm fun hm => absurd (List.mem_map_of_mem (f := Prod.fst) hm) h.1⟩
    · simp [lookup_cons_eq_ite, hk, ih h.2]

theorem get?_eq_some_iff {t : Table α} {k : String} {v : α} :
    t.get? k = some v ↔ (k, v) ∈ t.entries := lookup_eq_some_iff t.nodup_keys

theorem get?_sorted (t : Table α) (k : String) : t.sorted.get? k = t.get? k := by
  refine Option.ext fun v => ?_
  rw [get?_eq_some_iff, get?_eq_some_iff]
  exact (List.mergeSort_perm t.entries keyLE).mem_iff

end Table

end CandyDrop
