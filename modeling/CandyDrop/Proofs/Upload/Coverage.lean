import CandyDrop.Proofs.Upload.Batches
import Mathlib.Data.List.Basic

/-!
# What batches cover

To cut a record into batches fails at the first position where something is wrong
(`Table.FaultAt`), and only then. Otherwise the batches hold the lines of the positions that are not
on the chain, in order and each one once, and the positions in a batch follow one on the other. Of
the record no more counts than what it holds at these positions (`Batch.ofItems_covers`).
-/

namespace CandyDrop

/-! ## Positions -/

namespace Table

variable {items : Table CacheItem} {i : Nat} {e : DeployFault}

/-- What is wrong with the item at a position, if something is. -/
inductive FaultAt (items : Table CacheItem) (i : Nat) : DeployFault → Prop
  | item (h : items.get? i.repr = none) : FaultAt items i (.missingItem i)
  | name {item : CacheItem} (h : items.get? i.repr = some item) (hpending : item.onChain = false)
      (hname : item.name = "") : FaultAt items i (.missingName i)
  | link {item : CacheItem} (h : items.get? i.repr = some item) (hpending : item.onChain = false)
      (hname : item.name ≠ "") (hlink : item.link = "") : FaultAt items i (.missingLink i)

/-- The position, the name and the link of an item that is not on the chain. -/
def pendingEntry? (items : Table CacheItem) (i : Nat) : Option (Nat × String × String) :=
  (items.get? i.repr).bind fun item =>
    if item.onChain then none else some (i, item.name, item.link)

theorem map_entry_pendingLine? (hi : i < 2 ^ 32) :
    (items.pendingLine? i).map ConfigLine.entry = items.pendingEntry? i := by
  rw [pendingLine?, pendingEntry?]
  cases items.get? i.repr with
  | none => rfl
  | some item =>
    obtain ⟨name, link, onChain⟩ := item
    cases onChain with
    | true => rfl
    | false => simp [CacheItem.pending?, ConfigLine.entry, UInt32.toNat_ofNat_of_lt' hi]

theorem faultAt_iff : items.FaultAt i e ↔ Slot.ofItem i (items.get? i.repr) = .error e := by
  constructor
  · rintro (h | ⟨h, hpending, hname⟩ | ⟨h, hpending, hname, hlink⟩)
    · rw [h, Slot.ofItem]
    · simp [h, Slot.ofItem, CacheItem.pending?, hpending, hname]
    · simp [h, Slot.ofItem, CacheItem.pending?, hpending, hname, hlink]
  · intro h
    cases hitem : items.get? i.repr with
    | none =>
      rw [hitem] at h
      cases h
      exact .item hitem
    | some item =>
      rw [hitem, Slot.ofItem] at h
      cases hpending : item.onChain with
      | true => simp [CacheItem.pending?, hpending] at h
      | false =>
        simp only [CacheItem.pending?, hpending, Bool.false_eq_true, if_false] at h
        split at h
        · next hname =>
          cases h
          exact .name hitem hpending hname
        · next hname =>
          split at h
          · next hlink =>
            cases h
            exact .link hitem hpending hname hlink
          · cases h

end Table

namespace Slot

variable {items items' : Table CacheItem} {count start : Nat} {e : DeployFault}

/-- **Cutting a record fails at the first position where something is wrong.** -/
theorem ofItems_eq_error_iff : ofItems items count start = .error e ↔
    ∃ i, start ≤ i ∧ i < start + count ∧ items.FaultAt i e ∧
      ∀ j, start ≤ j → j < i → ∀ f, ¬items.FaultAt j f := by
  induction count generalizing start with
  | zero =>
    constructor
    · intro h
      cases h
    · rintro ⟨i, hle, hlt, -⟩
      omega
  | succ count ih =>
    rw [ofItems, except_bind_eq_error_iff]
    constructor
    · rintro (hfirst | ⟨slot, hslot, h⟩)
      · exact ⟨start, Nat.le_refl _, by omega, Table.faultAt_iff.2 hfirst, by omega⟩
      · rcases except_bind_eq_error_iff.1 h with hrest | ⟨_, -, h⟩
        · obtain ⟨i, hle, hlt, hi, hbefore⟩ := ih.1 hrest
          refine ⟨i, by omega, by omega, hi, fun j hj hji f hf => ?_⟩
          rcases Nat.eq_or_lt_of_le hj with rfl | hj
          · rw [Table.faultAt_iff, hslot] at hf
            cases hf
          · exact hbefore j hj hji f hf
        · cases h
    · rintro ⟨i, hle, hlt, hi, hbefore⟩
      rcases Nat.eq_or_lt_of_le hle with rfl | hle
      · exact .inl (Table.faultAt_iff.1 hi)
      · cases hslot : ofItem start (items.get? start.repr) with
        | error f => exact absurd (Table.faultAt_iff.2 hslot) (hbefore start (Nat.le_refl _) hle f)
        | ok slot =>
          have hrest : ofItems items count (start + 1) = .error e :=
            ih.2 ⟨i, hle, by omega, hi, fun j hj => hbefore j (by omega)⟩
          exact .inr ⟨slot, rfl, except_bind_eq_error_iff.2 (.inl hrest)⟩

theorem ofItems_congr (h : ∀ i < start + count, items'.get? i.repr = items.get? i.repr) :
    ofItems items' count start = ofItems items count start := by
  induction count generalizing start with
  | zero => rfl
  | succ count ih =>
    have hrest : ofItems items' count (start + 1) = ofItems items count (start + 1) :=
      ih fun i hi => h i (by omega)
    rw [ofItems, ofItems, h start (by omega), hrest]

end Slot

namespace Batch

theorem map_index_of_isRun {start : Nat} {batch : Batch} (h : IsRun start batch) :
    batch.map (fun l => l.index.toNat) = List.range' start batch.length := by
  induction batch generalizing start with
  | nil => rfl
  | cons l ls ih => rw [List.map_cons, List.length_cons, List.range'_succ, h.1, ih h.2]

theorem ofItems_eq_error_iff {items : Table CacheItem} {count : UInt64} {e : DeployFault} :
    ofItems count items = .error e ↔
      ∃ i < count.toNat, items.FaultAt i e ∧ ∀ j < i, ∀ f, ¬items.FaultAt j f := by
  have hslots : ofItems count items = .error e ↔
      Slot.ofItems items count.toNat 0 = .error e := by
    rw [ofItems, except_bind_eq_error_iff]
    refine ⟨?_, .inl⟩
    rintro (h | ⟨_, -, h⟩)
    · exact h
    · cases h
  rw [hslots, Slot.ofItems_eq_error_iff]
  simp only [Nat.zero_le, true_and, Nat.zero_add, forall_const]

/-- **What the batches of a record cover.** Cutting the record fails exactly if something is wrong
with one of the positions, and tells what it is at the first of them. Otherwise the batches, one
after the other, are the lines of all positions that are not on the chain, in ascending order, and
in each batch the positions follow one on the other. Items under other keys do not matter, and
neither does the order of the items. -/
theorem ofItems_covers (items : Table CacheItem) (count : UInt64) (hcount : count.toNat ≤ 2 ^ 32) :
    (∀ e, ofItems count items = .error e ↔
      ∃ i < count.toNat, items.FaultAt i e ∧ ∀ j < i, ∀ f, ¬items.FaultAt j f) ∧
    ((∀ i < count.toNat, ∀ e, ¬items.FaultAt i e) →
      ∃ batches, ofItems count items = .ok batches ∧
        batches.flatten.map ConfigLine.entry =
          (List.range count.toNat).filterMap items.pendingEntry? ∧
        ∀ b ∈ batches, ∃ start,
          b.map (fun l => l.index.toNat) = List.range' start b.length) ∧
    ∀ items' : Table CacheItem,
      (∀ i < count.toNat, ∀ item,
        (i.repr, item) ∈ items'.entries ↔ (i.repr, item) ∈ items.entries) →
      ofItems count items' = ofItems count items := by
  refine ⟨fun _ => ofItems_eq_error_iff, fun hsound => ?_, fun items' hsame => ?_⟩
  · cases hbatches : ofItems count items with
    | error e =>
      obtain ⟨i, hi, hfault, -⟩ := ofItems_eq_error_iff.1 hbatches
      exact absurd hfault (hsound i hi e)
    | ok batches =>
      refine ⟨batches, rfl, ?_, fun b hb => ?_⟩
      · rw [flatten_of_ofItems hbatches, Table.pendingLines, List.map_filterMap]
        exact List.filterMap_congr fun i hi =>
          Table.map_entry_pendingLine? (Nat.lt_of_lt_of_le (List.mem_range.1 hi) hcount)
      · obtain ⟨slots, hslots, rfl⟩ := ofItems_eq_ok_iff.1 hbatches
        obtain ⟨start, hrun⟩ :=
          exists_isRun_of_mem_divide (Slot.inPlace_of_ofItems hslots (by omega)) b hb
        exact ⟨start, map_index_of_isRun hrun⟩
  · have hget : ∀ i < 0 + count.toNat, items'.get? i.repr = items.get? i.repr := fun i hi =>
      Option.ext fun item => by
        rw [Table.get?_eq_some_iff, Table.get?_eq_some_iff]
        exact hsame i (by omega) item
    rw [ofItems, ofItems, Slot.ofItems_congr hget]

/-- The items were not added in order, and one of them is on the chain. -/
theorem ofItems_covers_unordered :
    let items : Table CacheItem :=
      .ofList [("2", ⟨"C", "c", false⟩), ("x", ⟨"", "", false⟩), ("0", ⟨"A", "a", false⟩),
        ("1", ⟨"", "", true⟩), ("3", ⟨"D", "d", false⟩)]
    ∃ batches, ofItems 4 items = .ok batches ∧
      batches.flatten.map ConfigLine.entry = [(0, "A", "a"), (2, "C", "c"), (3, "D", "d")] := by
  intro items
  have hsound : ∀ i < (4 : UInt64).toNat, ∀ e, ¬items.FaultAt i e := by
    have hok : ∀ i < (4 : UInt64).toNat, (Slot.ofItem i (items.get? i.repr)).isOk = true := by
      decide
    intro i hi e hfault
    have hi := hok i hi
    rw [Table.faultAt_iff.1 hfault] at hi
    cases hi
  obtain ⟨batches, hbatches, hentries, -⟩ := (ofItems_covers items 4 (by decide)).2.1 hsound
  exact ⟨batches, hbatches, hentries.trans (by decide)⟩

end Batch

end CandyDrop
