import CandyDrop.Proofs.Upload.Batches

/-!
# No division into batches is shorter

The pending lines of a record can be divided into batches in many ways (`Table.IsDivision`). The one
that is used fills each batch before it opens the next, and none has fewer batches
(`Batch.ofItems_minimal`).

The argument compares no two divisions line by line. Where a batch was closed, no transaction can
hold its first position together with a position after it: a position between them has no line to
write, or the lines between them are too many (`Table.Apart`). So in any other division the first
positions of the batches are in different parts, and there are at least as many parts.
-/

namespace CandyDrop

namespace Table

variable {items : Table CacheItem} {count i j n : Nat} {p q : List Nat}

/-- The lines to write to some positions. -/
def linesAt (items : Table CacheItem) (positions : List Nat) : Batch :=
  positions.filterMap items.pendingLine?

/-- There is a line to write to the position. -/
def isPending (items : Table CacheItem) (i : Nat) : Bool := (items.pendingLine? i).isSome

/-- The positions to which there is a line to write. -/
def pendingPositions (items : Table CacheItem) (count : Nat) : List Nat :=
  (List.range count).filter items.isPending

/-- One transaction can write to these positions: they follow one on the other, each of them has a
line to write, and the lines are within the limits. -/
structure IsPart (items : Table CacheItem) (positions : List Nat) : Prop where
  consecutive : ∃ start, positions = List.range' start positions.length
  pending : ∀ i ∈ positions, items.isPending i = true
  length_le : positions.length ≤ Batch.maxLines
  size_le : (items.linesAt positions).size ≤ Batch.maxBytes

/-- The parts hold each position that has a line to write once, and one transaction can write to
those of a part. -/
structure IsDivision (items : Table CacheItem) (count : Nat) (parts : List (List Nat)) : Prop where
  perm : parts.flatten.Perm (items.pendingPositions count)
  isPart : ∀ p ∈ parts, items.IsPart p

/-- No transaction can write to the first position of `p` and also to one of `q`. -/
def Apart (items : Table CacheItem) (p q : List Nat) : Prop :=
  ∀ i ∈ p.head?, ∀ j ∈ q, ∀ part, items.IsPart part → i ∈ part → j ∉ part

/-! ## Parts -/

theorem length_linesAt (h : ∀ i ∈ p, items.isPending i = true) :
    (items.linesAt p).length = p.length := by
  induction p with
  | nil => rfl
  | cons i p ih =>
    rw [List.forall_mem_cons] at h
    obtain ⟨l, hl⟩ := Option.isSome_iff_exists.1 h.1
    have ih := ih h.2
    rw [linesAt] at ih ⊢
    rw [List.filterMap_cons_some hl, List.length_cons, List.length_cons, ih]

theorem linesAt_append (p q : List Nat) :
    items.linesAt (p ++ q) = items.linesAt p ++ items.linesAt q := List.filterMap_append

/-- Two positions are in a range with all that is between them. -/
theorem exists_range'_eq_append {start length : Nat} (hi : i ∈ List.range' start length)
    (hj : i + n ∈ List.range' start length) :
    ∃ before after, List.range' start length = before ++ List.range' i (n + 1) ++ after := by
  rw [List.mem_range'_1] at hi hj
  obtain ⟨k, rfl⟩ := Nat.exists_eq_add_of_le hi.1
  obtain ⟨m, rfl⟩ : ∃ m, length = k + (n + 1) + m := Nat.exists_eq_add_of_le (by omega)
  refine ⟨List.range' start k, List.range' (start + (k + (n + 1))) m, ?_⟩
  rw [List.range'_append_1, List.range'_append_1]

namespace IsPart

/-- What one transaction can write to includes all that is between two positions of it. -/
theorem mem_of_between (h : items.IsPart p) (hi : i ∈ p) (hj : j ∈ p) {k : Nat} (hik : i ≤ k)
    (hkj : k ≤ j) : k ∈ p := by
  obtain ⟨start, hp⟩ := h.consecutive
  rw [hp, List.mem_range'_1] at hi hj ⊢
  omega

/-- With two positions, the lines of the range from one to the other are within the limits. -/
theorem limits_of_between (h : items.IsPart p) (hi : i ∈ p) (hj : i + n ∈ p) :
    n + 1 ≤ Batch.maxLines ∧ (items.linesAt (List.range' i (n + 1))).size ≤ Batch.maxBytes := by
  obtain ⟨start, hp⟩ := h.consecutive
  rw [hp] at hi hj
  obtain ⟨before, after, hsplit⟩ := exists_range'_eq_append hi hj
  have hlength := h.length_le
  have hsize := h.size_le
  rw [hp, hsplit] at hlength hsize
  rw [linesAt_append, linesAt_append, Batch.size_append, Batch.size_append] at hsize
  simp only [List.length_append, List.length_range'] at hlength
  omega

end IsPart

theorem eq_of_mem_head?_range' (h : j ∈ (List.range' i n).head?) : j = i := by
  cases n with
  | zero => cases h
  | succ n => exact (Option.some.inj h).symm

/-- A range is apart from what comes after a position to which there is no line to write. -/
theorem apart_of_gap (hgap : items.isPending (i + n) = false)
    (hq : ∀ j ∈ q, i + n < j) : items.Apart (List.range' i n) q := by
  intro a ha j hj part hpart hin hjn
  obtain rfl := eq_of_mem_head?_range' ha
  have hbetween := hpart.mem_of_between hin hjn (Nat.le_add_right ..) (Nat.le_of_lt (hq j hj))
  rw [hpart.pending _ hbetween] at hgap
  cases hgap

/-- A range is apart from what comes after it if it is too long with the next position. -/
theorem apart_of_full (hfull : Batch.maxBytes < (items.linesAt (List.range' i (n + 1))).size ∨
      Batch.maxLines < n + 1) (hq : ∀ j ∈ q, i + n ≤ j) : items.Apart (List.range' i n) q := by
  intro a ha j hj part hpart hin hjn
  obtain rfl := eq_of_mem_head?_range' ha
  have hbetween := hpart.mem_of_between hin hjn (Nat.le_add_right ..) (hq j hj)
  obtain ⟨hlength, hsize⟩ := hpart.limits_of_between hin hbetween
  omega

end Table

namespace Batch

variable {items : Table CacheItem} {count start : Nat} {slots : List Slot}

/-! ## The division that is used -/

theorem eq_zero_of_isEmpty_linesAt {i n : Nat}
    (hpending : ∀ j ∈ List.range' i n, items.isPending j = true)
    (h : (items.linesAt (List.range' i n)).isEmpty = true) : n = 0 := by
  have hlength := Table.length_linesAt hpending
  rwa [List.isEmpty_iff_length_eq_zero.1 h, List.length_range', eq_comm] at hlength

/-- The batches are the lines of these parts, which hold the positions in order, each part a range,
and are apart. -/
structure Cut (items : Table CacheItem) (positions : List Nat) (batches : List Batch)
    (parts : List (List Nat)) : Prop where
  batches_eq : batches = parts.map items.linesAt
  flatten_eq : parts.flatten = positions
  consecutive : ∀ p ∈ parts, ∃ start, p = List.range' start p.length
  apart : parts.Pairwise items.Apart

theorem Cut.nil : Cut items [] [] [] := ⟨rfl, rfl, by simp, .nil⟩

/-- A range can come first if it is apart from what comes then. -/
theorem Cut.cons {positions : List Nat} {batches : List Batch} {parts : List (List Nat)} {i n : Nat}
    (h : Cut items positions batches parts)
    (hapart : ∀ q, (∀ j ∈ q, j ∈ positions) → items.Apart (List.range' i n) q) :
    Cut items (List.range' i n ++ positions) (items.linesAt (List.range' i n) :: batches)
      (List.range' i n :: parts) where
  batches_eq := by rw [h.batches_eq, List.map_cons]
  flatten_eq := by rw [List.flatten_cons, h.flatten_eq]
  consecutive := List.forall_mem_cons.2 ⟨⟨i, by rw [List.length_range']⟩, h.consecutive⟩
  apart := by
    refine List.pairwise_cons.2 ⟨fun q hq => hapart q fun j hj => ?_, h.apart⟩
    rw [← h.flatten_eq]
    exact List.mem_flatten.2 ⟨q, hq, hj⟩

/-- While slots are divided, the lines of the batch that is open are those of a range that ends
where the slots begin. -/
theorem exists_cut_of_ofItems (first n : Nat) (h : Slot.ofItems items count start = .ok slots)
    (hopen : first + n = start)
    (hpending : ∀ i ∈ List.range' first n, items.isPending i = true) :
    let batch := items.linesAt (List.range' first n)
    ∃ parts, Cut items
      (List.range' first n ++
        (List.range' start count).filter items.isPending)
      (divideFrom batch batch.size slots) parts := by
  intro batch
  induction count generalizing start first n slots with
  | zero =>
    cases h
    rw [divideFrom]
    split
    · next hnone =>
      obtain rfl := eq_zero_of_isEmpty_linesAt hpending hnone
      exact ⟨[], .nil⟩
    · exact ⟨_, Cut.nil.cons fun q hq i _ j hj => absurd (hq j hj) List.not_mem_nil⟩
  | succ count ih =>
    obtain ⟨slot, rest, rfl, hslot, hrest⟩ := Slot.ofItems_succ h
    have hline := Slot.line?_of_ofItem hslot
    have hafter : ∀ j ∈ (List.range' (start + 1) count).filter items.isPending, start < j :=
      fun j hj => (List.mem_range'_1.1 (List.mem_filter.1 hj).1).1
    rw [List.range'_succ]
    cases slot with
    | written =>
      have hgap : items.isPending start = false := by rw [Table.isPending, ← hline]; rfl
      obtain ⟨parts, hcut⟩ := ih (start + 1) 0 hrest rfl (by simp)
      rw [List.filter_cons_of_neg (by simp [hgap]), divideFrom]
      split
      · next hnone =>
        obtain rfl := eq_zero_of_isEmpty_linesAt hpending hnone
        exact ⟨parts, hcut⟩
      · refine ⟨_, hcut.cons fun q hq => ?_⟩
        exact Table.apart_of_gap (hopen ▸ hgap) fun j hj => hopen ▸ hafter j (hq j hj)
    | line l =>
      have hsome : items.isPending start = true := by rw [Table.isPending, ← hline]; rfl
      have hone : items.linesAt (List.range' start 1) = [l] := List.filterMap_cons_some hline.symm
      have hlines : items.linesAt (List.range' first (n + 1)) = batch ++ [l] := by
        rw [List.range'_concat, Nat.one_mul, hopen, Table.linesAt_append]
        exact congrArg _ hone
      rw [List.filter_cons_of_pos hsome, divideFrom]
      split
      · next hfull =>
        obtain ⟨parts, hcut⟩ := ih start 1 hrest rfl (by simp [hsome])
        rw [hone, size_singleton] at hcut
        refine ⟨_, hcut.cons fun q hq => Table.apart_of_full ?_ fun j hj => ?_⟩
        · rw [hlines, size_append, size_singleton]
          have hlength : batch.length = n :=
            (Table.length_linesAt hpending).trans List.length_range'
          omega
        · rcases List.mem_cons.1 (hq j hj) with rfl | hj
          · omega
          · have := hafter j hj
            omega
      · have hgrown : ∀ i ∈ List.range' first (n + 1), items.isPending i = true := by
          rw [List.range'_concat, Nat.one_mul, hopen, List.forall_mem_append]
          exact ⟨hpending, by simpa using hsome⟩
        obtain ⟨parts, hcut⟩ := ih first (n + 1) hrest (by omega) hgrown
        rw [hlines, size_append, size_singleton, List.range'_concat, Nat.one_mul, hopen,
          List.append_assoc] at hcut
        exact ⟨parts, hcut⟩

/-! ## Other divisions -/

/-- If each part holds at most one of some elements and each element is in a part, then there are at
least as many parts. -/
theorem length_le_of_pairwise {is : List Nat} {parts : List (List Nat)}
    (hcover : ∀ i ∈ is, ∃ p ∈ parts, i ∈ p)
    (hapart : is.Pairwise fun i j => ∀ p ∈ parts, i ∈ p → j ∉ p) : is.length ≤ parts.length := by
  induction is generalizing parts with
  | nil => exact Nat.zero_le _
  | cons i is ih =>
    rw [List.forall_mem_cons] at hcover
    rw [List.pairwise_cons] at hapart
    obtain ⟨⟨p, hp, hip⟩, hcover⟩ := hcover
    -- The part of the first element holds none of the others, so they do without it.
    have hrest : ∀ j ∈ is, ∃ q ∈ parts.erase p, j ∈ q := fun j hj => by
      obtain ⟨q, hq, hjq⟩ := hcover j hj
      have hne : q ≠ p := by
        rintro rfl
        exact hapart.1 j hj q hq hip hjq
      exact ⟨q, (List.mem_erase_of_ne hne).2 hq, hjq⟩
    have hle := ih hrest (hapart.2.imp fun h q hq => h q (List.mem_of_mem_erase hq))
    rw [List.length_erase_of_mem hp] at hle
    have hpos := List.length_pos_of_mem hp
    rw [List.length_cons]
    omega

/-- Parts that are apart are no more than those of any division, if none of them is empty. -/
theorem Cut.length_le {positions : List Nat} {batches : List Batch} {parts others : List (List Nat)}
    (h : Cut items positions batches parts) (hne : ∀ p ∈ parts, p ≠ [])
    (hcover : ∀ i ∈ positions, ∃ p ∈ others, i ∈ p) (hothers : ∀ p ∈ others, items.IsPart p) :
    parts.length ≤ others.length := by
  have hhead : ∀ p ∈ parts, p.headD 0 ∈ p.head? := fun p hp => by
    cases p with
    | nil => exact absurd rfl (hne [] hp)
    | cons i p => rfl
  rw [← List.length_map (fun p : List Nat => p.headD 0)]
  refine length_le_of_pairwise (fun i hi => ?_) (List.pairwise_map.2 ?_)
  · obtain ⟨p, hp, rfl⟩ := List.mem_map.1 hi
    refine hcover _ ?_
    rw [← h.flatten_eq]
    exact List.mem_flatten.2 ⟨p, hp, List.mem_of_mem_head? (hhead p hp)⟩
  · refine h.apart.imp_of_mem fun {p q} hp hq hpq part hpart => ?_
    exact hpq _ (hhead p hp) _ (List.mem_of_mem_head? (hhead q hq)) part (hothers part hpart)

/-- **The batches are within the limits, and there is no way to do with fewer.** If no pending line
alone exceeds the limit, then no batch is empty or exceeds the limits, the batches come from a
division of the pending positions into ranges, and every other such division has at least as many
parts. -/
theorem ofItems_minimal {count : UInt64} {batches : List Batch}
    (h : ofItems count items = .ok batches)
    (hsize : ∀ l ∈ items.pendingLines count.toNat, l.size ≤ maxBytes) :
    (∀ b ∈ batches, b.WithinLimits) ∧
    (∃ parts, items.IsDivision count.toNat parts ∧ batches = parts.map items.linesAt) ∧
    ∀ parts, items.IsDivision count.toNat parts → batches.length ≤ parts.length := by
  have hlimits := limits_of_ofItems h hsize
  obtain ⟨slots, hslots, rfl⟩ := ofItems_eq_ok_iff.1 h
  obtain ⟨parts, hcut⟩ := exists_cut_of_ofItems 0 0 hslots rfl (by simp)
  have hbatches : divide slots = parts.map items.linesAt := hcut.batches_eq
  have hflat : parts.flatten = items.pendingPositions count.toNat := by
    rw [hcut.flatten_eq, Table.pendingPositions, List.range_eq_range']
    rfl
  have hwithin : ∀ p ∈ parts, WithinLimits (items.linesAt p) := fun p hp =>
    hlimits _ (hbatches ▸ List.mem_map_of_mem hp)
  have hpending : ∀ p ∈ parts, ∀ i ∈ p, items.isPending i = true := fun p hp i hi => by
    have hmem : i ∈ items.pendingPositions count.toNat := hflat ▸ List.mem_flatten.2 ⟨p, hp, hi⟩
    exact (List.mem_filter.1 hmem).2
  have hdivision : items.IsDivision count.toNat parts := by
    refine ⟨.of_eq hflat, fun p hp => ⟨hcut.consecutive p hp, hpending p hp, ?_, ?_⟩⟩
    · rw [← Table.length_linesAt (hpending p hp)]
      exact (hwithin p hp).length_le
    · exact (hwithin p hp).size_le
  refine ⟨hlimits, ⟨parts, hdivision, hbatches⟩, fun others hothers => ?_⟩
  have hne : ∀ p ∈ parts, p ≠ [] := by
    rintro p hp rfl
    exact (hwithin [] hp).ne_nil rfl
  have hcover : ∀ i ∈ parts.flatten, ∃ p ∈ others, i ∈ p := fun i hi =>
    List.mem_flatten.1 ((hothers.perm.trans hdivision.perm.symm).mem_iff.2 hi)
  rw [hbatches, List.length_map]
  exact hcut.length_le hne (hcut.flatten_eq ▸ hcover) hothers.isPart

/-- Of forty items one is on the chain. The twenty before it take two batches, and so do the
nineteen after it. -/
theorem ofItems_minimal_forty :
    let items : Table CacheItem :=
      .ofList ((List.range 40).map fun i => (i.repr, ⟨"A", "https://example.com", i = 20⟩))
    ∃ batches, ofItems 40 items = .ok batches ∧ batches.map List.length = [17, 3, 17, 2] ∧
      ∀ parts, items.IsDivision 40 parts → 4 ≤ parts.length := by
  intro items
  have hlengths : (ofItems 40 items).toOption.map (List.map List.length) = some [17, 3, 17, 2] := by
    decide +kernel
  have hsize : ∀ l ∈ items.pendingLines (40 : UInt64).toNat, l.size ≤ maxBytes := by
    decide +kernel
  cases h : ofItems 40 items with
  | error e =>
    rw [h] at hlengths
    cases hlengths
  | ok batches =>
    rw [h] at hlengths
    have hlengths := Option.some.inj hlengths
    obtain ⟨-, -, hminimal⟩ := ofItems_minimal h hsize
    refine ⟨batches, rfl, hlengths, fun parts hparts => ?_⟩
    have hle := hminimal parts hparts
    rwa [← List.length_map List.length, hlengths] at hle

end Batch

end CandyDrop
