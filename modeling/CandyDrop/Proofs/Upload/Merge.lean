import CandyDrop.Proofs.Cache.Marks
import CandyDrop.Proofs.Upload.Batches
import CandyDrop.Proofs.Upload.Survey

/-!
# What a record says of a collection

A line of a collection is an entry: a position with a name and a link (`LineCall.entriesFrom`). A
record has written an entry if the item at its position has that name and link and is on the chain
(`Cache.HasWritten`). Merging a collection into a record lists all of its entries and keeps this
(`get?_merge`); a flag that is left in a merged record was there before with the same name and link
(`get?_merge_of_onChain`). What is pending then are the entries that were not written
(`map_entry_pendingLines`).
-/

namespace CandyDrop

namespace LineCall

variable {start : Nat} {lines : List (String × String)} {e : Nat × String × String}

theorem mem_entriesFrom_iff : e ∈ entriesFrom start lines ↔
    ∃ i l, lines[i]? = some l ∧ e = (start + i, l) := by
  induction lines generalizing start with
  | nil => simp [entriesFrom]
  | cons l ls ih =>
    rw [entriesFrom, List.mem_cons, ih]
    constructor
    · rintro (rfl | ⟨i, l', hl, rfl⟩)
      · exact ⟨0, l, rfl, rfl⟩
      · exact ⟨i + 1, l', hl, by rw [Nat.add_right_comm, Nat.add_assoc]⟩
    · rintro ⟨i, l', hl, rfl⟩
      cases i with
      | zero => exact .inl (by simpa using hl.symm)
      | succ i => exact .inr ⟨i, l', hl, by rw [Nat.add_right_comm, Nat.add_assoc]⟩

theorem map_fst_entriesFrom :
    (entriesFrom start lines).map (·.1) = List.range' start lines.length := by
  induction lines generalizing start with
  | nil => rfl
  | cons l ls ih => rw [entriesFrom, List.map_cons, ih, List.length_cons, List.range'_succ]

/-- No position has two lines. -/
theorem nodup_map_fst_entriesFrom : ((entriesFrom start lines).map (·.1)).Nodup := by
  rw [map_fst_entriesFrom]
  exact List.nodup_range'

theorem fst_lt_of_mem_entriesFrom (h : e ∈ entriesFrom 0 lines) : e.1 < lines.length := by
  obtain ⟨i, l, hl, rfl⟩ := mem_entriesFrom_iff.1 h
  have := (List.getElem?_eq_some_iff.1 hl).1
  omega

theorem exists_mem_entriesFrom {i : Nat} (h : i < lines.length) :
    ∃ l, (i, l) ∈ entriesFrom 0 lines :=
  ⟨lines[i], mem_entriesFrom_iff.2 ⟨i, lines[i], List.getElem?_eq_getElem h, by simp⟩⟩

end LineCall

namespace Cache

/-- The record says that this name and this link are on the chain at this position. -/
def HasWritten (c : Cache) (e : Nat × String × String) : Prop :=
  c.items.get? e.1.repr = some ⟨e.2.1, e.2.2, true⟩

instance (c : Cache) (e : Nat × String × String) : Decidable (c.HasWritten e) :=
  inferInstanceAs (Decidable (_ = _))

/-- The record has the name and the link of each entry at its position. -/
def Lists (c : Cache) (entries : List (Nat × String × String)) : Prop :=
  ∀ e ∈ entries, ∃ onChain, c.items.get? e.1.repr = some ⟨e.2.1, e.2.2, onChain⟩

end Cache

namespace Upload

/-! ## Merging -/

variable {c : Cache} {k : String} {item : CacheItem} {items : List (String × CacheItem)}
  {lines : List (String × String)} {e : Nat × String × String}

theorem merged_eq (r : Option CacheItem) (name link : String) :
    merged r ⟨name, link, false⟩ = ⟨name, link, decide (r = some ⟨name, link, true⟩)⟩ := by
  cases r with
  | none => simp [merged]
  | some r =>
    obtain ⟨n, l, onChain⟩ := r
    simp only [merged, CacheItem.mk.injEq, true_and, Option.some.injEq]
    rw [Bool.eq_iff_iff]
    simp only [Bool.and_eq_true, beq_iff_eq, decide_eq_true_eq]
    constructor
    · rintro ⟨⟨rfl, rfl⟩, rfl⟩
      exact ⟨rfl, rfl, rfl⟩
    · rintro ⟨rfl, rfl, rfl⟩
      exact ⟨⟨rfl, rfl⟩, rfl⟩

/-- An item that is merged with its flag left was recorded in the same way. -/
theorem eq_of_onChain_merged {r : Option CacheItem} (h : (merged r item).onChain = true) :
    r = some (merged r item) := by
  cases r with
  | none => simp [merged] at h
  | some r =>
    obtain ⟨n, l, onChain⟩ := r
    simp only [merged, Bool.and_eq_true, beq_iff_eq] at h ⊢
    obtain ⟨⟨rfl, rfl⟩, rfl⟩ := h
    simp

/-- **A flag that is left in a merged record** was there before, with the same name and link. -/
theorem get?_merge_of_onChain (h : (merge items c).items.get? k = some item)
    (hon : item.onChain = true) : c.items.get? k = some item := by
  unfold merge at h
  generalize c.items = table at h ⊢
  induction items generalizing table with
  | nil => exact h
  | cons i is ih =>
    have hrest := ih _ h
    rw [Table.get?_insert] at hrest
    split at hrest
    · next hk =>
      obtain rfl := Option.some.inj hrest
      rw [hk]
      exact eq_of_onChain_merged hon
    · exact hrest

/-- Merging a collection drops no item. -/
theorem isSome_get?_merge (h : (c.items.get? k).isSome) :
    ((merge items c).items.get? k).isSome := by
  unfold merge
  generalize c.items = table at h ⊢
  induction items generalizing table with
  | nil => exact h
  | cons i is ih =>
    apply ih
    rw [Table.get?_insert]
    split
    · rfl
    · exact h

theorem get?_foldl_insert_of_not_mem {table : Table CacheItem} (h : k ∉ items.map Prod.fst) :
    (items.foldl (fun t (k, item) => t.insert k (merged (t.get? k) item)) table).get? k =
      table.get? k := by
  induction items generalizing table with
  | nil => rfl
  | cons i is ih =>
    rw [List.map_cons, List.mem_cons, not_or] at h
    rw [List.foldl_cons, ih h.2, Table.get?_insert, if_neg h.1]

/-- Merging changes only the items of the collection. -/
theorem get?_merge_of_not_mem (h : k ∉ items.map Prod.fst) :
    (merge items c).items.get? k = c.items.get? k :=
  get?_foldl_insert_of_not_mem h

/-- A collection without a position twice is merged item by item. -/
theorem get?_merge_of_mem (hnodup : (items.map Prod.fst).Nodup) (h : (k, item) ∈ items) :
    (merge items c).items.get? k = some (merged (c.items.get? k) item) := by
  unfold merge
  generalize c.items = table
  induction items generalizing table with
  | nil => cases h
  | cons i is ih =>
    rw [List.map_cons, List.nodup_cons] at hnodup
    rcases List.mem_cons.1 h with rfl | h
    · simp only [List.foldl_cons]
      rw [get?_foldl_insert_of_not_mem hnodup.1, Table.get?_insert, if_pos rfl]
    · have hne : k ≠ i.1 := by
        rintro rfl
        exact hnodup.1 (List.mem_map.2 ⟨_, h, rfl⟩)
      rw [List.foldl_cons, ih hnodup.2 h, Table.get?_insert, if_neg hne]

theorem nodup_map_fst_numbered : ((numbered 0 lines).map Prod.fst).Nodup := by
  have hkeys : (numbered 0 lines).map Prod.fst =
      ((LineCall.entriesFrom 0 lines).map (·.1)).map Nat.repr := by
    simp [numbered, Function.comp_def]
  rw [hkeys]
  exact List.pairwise_map.2 (LineCall.nodup_map_fst_entriesFrom.imp fun hne h =>
    hne (Text.repr_inj.1 h))

/-- **Merging a collection** lists its entries, those on the chain that the record has written. -/
theorem get?_merge (he : e ∈ LineCall.entriesFrom 0 lines) :
    (merge (numbered 0 lines) c).items.get? e.1.repr =
      some ⟨e.2.1, e.2.2, decide (c.HasWritten e)⟩ := by
  have hmem : (e.1.repr, (⟨e.2.1, e.2.2, false⟩ : CacheItem)) ∈ numbered 0 lines :=
    List.mem_map.2 ⟨e, he, rfl⟩
  rw [get?_merge_of_mem nodup_map_fst_numbered hmem, merged_eq]
  rfl

/-! ## What is pending -/

theorem pendingLine?_of_hasWritten (h : c.HasWritten e) :
    c.items.pendingLine? e.1 = none := by
  rw [Table.pendingLine?, show c.items.get? e.1.repr = _ from h]
  rfl

theorem pendingLine?_of_not_hasWritten
    (h : ∃ onChain, c.items.get? e.1.repr = some ⟨e.2.1, e.2.2, onChain⟩) (hw : ¬c.HasWritten e) :
    c.items.pendingLine? e.1 = some ⟨UInt32.ofNat e.1, e.2.1, e.2.2⟩ := by
  obtain ⟨onChain, h⟩ := h
  cases onChain with
  | true => exact absurd h hw
  | false =>
    rw [Table.pendingLine?, h]
    rfl

/-- **The pending lines of a record** that lists a collection are the entries that it has not
written, in order. -/
theorem map_entry_pendingLines (hlists : c.Lists (LineCall.entriesFrom 0 lines))
    (hlen : lines.length ≤ 2 ^ 32) :
    (c.items.pendingLines lines.length).map ConfigLine.entry =
      (LineCall.entriesFrom 0 lines).filter fun e => ¬c.HasWritten e := by
  have haux : ∀ es : List (Nat × String × String), c.Lists es → (∀ e ∈ es, e.1 < 2 ^ 32) →
      ((es.map (·.1)).filterMap c.items.pendingLine?).map ConfigLine.entry =
        es.filter fun e => ¬c.HasWritten e := by
    intro es hes hlt
    induction es with
    | nil => rfl
    | cons e es ih =>
      have hrest := ih (fun e he => hes e (List.mem_cons_of_mem _ he)) fun e he =>
        hlt e (List.mem_cons_of_mem _ he)
      by_cases hw : c.HasWritten e
      · rw [List.map_cons, List.filterMap_cons_none (pendingLine?_of_hasWritten hw), hrest,
          List.filter_cons_of_neg (by simpa using hw)]
      · have hline := pendingLine?_of_not_hasWritten (hes e (List.mem_cons_self ..)) hw
        have hentry : ConfigLine.entry ⟨UInt32.ofNat e.1, e.2.1, e.2.2⟩ = e := by
          have hindex : (UInt32.ofNat e.1).toNat = e.1 :=
            UInt32.toNat_ofNat_of_lt' (hlt e (List.mem_cons_self ..))
          simp [ConfigLine.entry, hindex]
        rw [List.map_cons, List.filterMap_cons_some hline, List.map_cons, hrest, hentry,
          List.filter_cons_of_pos (by simpa using hw)]
  have hlt : ∀ e ∈ LineCall.entriesFrom 0 lines, e.1 < 2 ^ 32 := fun e he =>
    Nat.lt_of_lt_of_le (LineCall.fst_lt_of_mem_entriesFrom he) hlen
  rw [← haux _ hlists hlt, Table.pendingLines, LineCall.map_fst_entriesFrom,
    List.range_eq_range']

/-- A pending line of a record that lists a collection is one of the collection. -/
theorem mem_of_mem_pendingLines {count : Nat} {l : ConfigLine}
    (hlists : c.Lists (LineCall.entriesFrom 0 lines)) (hcount : count ≤ lines.length)
    (h : l ∈ c.items.pendingLines count) : (l.name, l.uri) ∈ lines := by
  obtain ⟨i, hi, hl⟩ := Table.mem_pendingLines_iff.1 h
  obtain ⟨l', hmem⟩ := LineCall.exists_mem_entriesFrom (Nat.lt_of_lt_of_le hi hcount)
  obtain ⟨onChain, hitem⟩ := hlists _ hmem
  obtain ⟨item, hget, -, rfl⟩ := Table.pendingLine?_eq_some_iff.1 hl
  rw [hitem] at hget
  cases hget
  obtain ⟨j, l'', hj, heq⟩ := LineCall.mem_entriesFrom_iff.1 hmem
  cases heq
  exact List.mem_of_getElem? hj

end Upload

end CandyDrop
