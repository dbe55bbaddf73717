import CandyDrop.Proofs.Cluster.Effects
import CandyDrop.Proofs.Script.Runs

/-!
# The lines of a batch

Batches are cut from the pending lines of a record: nothing is lost or moved (`flatten_divide`), the
lines of a batch stand at consecutive positions (`exists_isRun_of_mem_divide`), and a batch is
within the limits of a transaction if each line alone is (`limits_of_mem_divide`). A batch that is
sent therefore writes each of its lines at the position of that line (`entries_transaction`).

A position is sent as a number of 32 bits; this is where the bound on the number of items is from.
-/

namespace CandyDrop

/-- The position of a line with its name and link. -/
def ConfigLine.entry (l : ConfigLine) : Nat × String × String := (l.index.toNat, l.name, l.uri)

/-! ## Slots -/

/-- The line to write to a position, if it is not written yet. -/
def Slot.line? : Slot → Option ConfigLine
  | .written => none
  | .line l => some l

namespace Table

variable {items : Table CacheItem} {count i : Nat} {l : ConfigLine}

/-- The line of a record for a position, if it has one that is not on the chain. -/
def pendingLine? (items : Table CacheItem) (i : Nat) : Option ConfigLine :=
  (items.get? i.repr).bind fun item =>
    item.pending?.map fun (name, link) => ⟨UInt32.ofNat i, name, link⟩

theorem pendingLine?_eq_some_iff : items.pendingLine? i = some l ↔
    ∃ item, items.get? i.repr = some item ∧ item.onChain = false ∧
      l = ⟨UInt32.ofNat i, item.name, item.link⟩ := by
  rw [pendingLine?, Option.bind_eq_some_iff]
  refine exists_congr fun item => and_congr_right fun _ => ?_
  cases hc : item.onChain <;> simp [CacheItem.pending?, hc, eq_comm]

/-- The lines of a record that are not on the chain, of the first `count` positions. -/
def pendingLines (items : Table CacheItem) (count : Nat) : List ConfigLine :=
  (List.range count).filterMap items.pendingLine?

theorem mem_pendingLines_iff :
    l ∈ items.pendingLines count ↔ ∃ i < count, items.pendingLine? i = some l := by
  simp [pendingLines]

theorem toNat_index_le_of_pendingLine? (h : items.pendingLine? i = some l) :
    l.index.toNat ≤ i := by
  obtain ⟨item, -, -, rfl⟩ := pendingLine?_eq_some_iff.1 h
  rw [UInt32.toNat_ofNat']
  exact Nat.mod_le _ _

theorem toNat_index_of_pendingLine? (h : items.pendingLine? i = some l) (hi : i < 2 ^ 32) :
    l.index.toNat = i := by
  obtain ⟨item, -, -, rfl⟩ := pendingLine?_eq_some_iff.1 h
  exact UInt32.toNat_ofNat_of_lt' hi

end Table

namespace Slot

/-- The lines among slots stand at their positions, the first slot being at `start`. -/
def InPlace : (start : Nat) → List Slot → Prop
  | _, [] => True
  | start, .written :: slots => InPlace (start + 1) slots
  | start, .line l :: slots => l.index.toNat = start ∧ InPlace (start + 1) slots

theorem line?_of_ofItem {items : Table CacheItem} {i : Nat} {slot : Slot}
    (h : ofItem i (items.get? i.repr) = .ok slot) : slot.line? = items.pendingLine? i := by
  rw [Table.pendingLine?]
  cases hitem : items.get? i.repr with
  | none => rw [hitem, ofItem] at h; cases h
  | some item =>
    rw [hitem, ofItem] at h
    cases hpending : item.pending? with
    | none =>
      rw [hpending] at h
      cases h
      simp [line?, hpending]
    | some p =>
      obtain ⟨name, link⟩ := p
      simp only [hpending] at h
      split at h
      · cases h
      · split at h
        · cases h
        · cases h
          simp [line?, hpending]

theorem ofItems_succ {items : Table CacheItem} {count start : Nat} {slots : List Slot}
    (h : ofItems items (count + 1) start = .ok slots) :
    ∃ slot rest, slots = slot :: rest ∧ ofItem start (items.get? start.repr) = .ok slot ∧
      ofItems items count (start + 1) = .ok rest := by
  obtain ⟨slot, hslot, h⟩ := except_bind_eq_ok_iff.1 h
  obtain ⟨rest, hrest, h⟩ := except_bind_eq_ok_iff.1 h
  cases h
  exact ⟨slot, rest, rfl, hslot, hrest⟩

theorem filterMap_line?_of_ofItems {items : Table CacheItem} {count start : Nat}
    {slots : List Slot} (h : ofItems items count start = .ok slots) :
    slots.filterMap line? = (List.range' start count).filterMap items.pendingLine? := by
  induction count generalizing start slots with
  | zero =>
    cases h
    rfl
  | succ count ih =>
    obtain ⟨slot, rest, rfl, hslot, hrest⟩ := ofItems_succ h
    rw [List.range'_succ, List.filterMap_cons, List.filterMap_cons, line?_of_ofItem hslot, ih hrest]

theorem inPlace_of_ofItems {items : Table CacheItem} {count start : Nat} {slots : List Slot}
    (h : ofItems items count start = .ok slots) (hfit : start + count ≤ 2 ^ 32) :
    InPlace start slots := by
  induction count generalizing start slots with
  | zero =>
    cases h
    trivial
  | succ count ih =>
    obtain ⟨slot, rest, rfl, hslot, hrest⟩ := ofItems_succ h
    have hin := ih hrest (by omega)
    cases slot with
    | written => exact hin
    | line l =>
      have hl := line?_of_ofItem hslot
      rw [line?] at hl
      exact ⟨Table.toNat_index_of_pendingLine? hl.symm (by omega), hin⟩

end Slot

/-! ## Dividing slots -/

namespace Batch

/-- The lines of a batch stand at consecutive positions from `start` on. -/
def IsRun : (start : Nat) → Batch → Prop
  | _, [] => True
  | start, l :: ls => l.index.toNat = start ∧ IsRun (start + 1) ls

theorem isRun_append_singleton {start : Nat} {batch : Batch} {l : ConfigLine}
    (h : IsRun start batch) (hl : l.index.toNat = start + batch.length) :
    IsRun start (batch ++ [l]) := by
  induction batch generalizing start with
  | nil => exact ⟨hl, trivial⟩
  | cons b bs ih =>
    refine ⟨h.1, ih h.2 ?_⟩
    rw [hl, List.length_cons]
    omega

theorem flatten_divideFrom (batch : Batch) (size : Nat) (slots : List Slot) :
    (divideFrom batch size slots).flatten = batch ++ slots.filterMap Slot.line? := by
  induction slots generalizing batch size with
  | nil =>
    cases batch <;> simp [divideFrom]
  | cons slot slots ih =>
    cases slot with
    | written =>
      rw [divideFrom, List.filterMap_cons_none rfl]
      cases batch with
      | nil => simp [ih]
      | cons l ls => simp [ih]
    | line l =>
      have hcons : (Slot.line l :: slots).filterMap Slot.line? =
          l :: slots.filterMap Slot.line? := List.filterMap_cons_some rfl
      rw [divideFrom, hcons]
      split <;> simp [ih]

/-- **No pending line is lost or moved.** -/
theorem flatten_divide (slots : List Slot) : (divide slots).flatten = slots.filterMap Slot.line? :=
  flatten_divideFrom [] 0 slots

theorem exists_isRun_of_mem_divideFrom (batch : Batch) (size first start : Nat)
    {slots : List Slot} (hbatch : IsRun first batch)
    (hnext : batch ≠ [] → start = first + batch.length) (hslots : Slot.InPlace start slots) :
    ∀ b ∈ divideFrom batch size slots, ∃ s, IsRun s b := by
  induction slots generalizing batch size first start with
  | nil =>
    intro b hb
    rw [divideFrom] at hb
    split at hb
    · cases hb
    · obtain rfl := List.mem_singleton.1 hb
      exact ⟨first, hbatch⟩
  | cons slot slots ih =>
    cases slot with
    | written =>
      have hrest := ih [] 0 0 _ trivial (by simp) hslots
      intro b hb
      rw [divideFrom] at hb
      split at hb
      · exact hrest b hb
      · obtain rfl | hb := List.mem_cons.1 hb
        · exact ⟨first, hbatch⟩
        · exact hrest b hb
    | line l =>
      obtain ⟨hl, hslots⟩ := hslots
      intro b hb
      rw [divideFrom] at hb
      split at hb
      · obtain rfl | hb := List.mem_cons.1 hb
        · exact ⟨first, hbatch⟩
        · exact ih [l] _ start _ ⟨hl, trivial⟩ (fun _ => rfl) hslots b hb
      · cases batch with
        | nil => exact ih [l] _ start _ ⟨hl, trivial⟩ (fun _ => rfl) hslots b hb
        | cons b₀ bs =>
          have hstart := hnext (by simp)
          have hrun := isRun_append_singleton hbatch (hl.trans hstart)
          refine ih _ _ _ _ hrun (fun _ => ?_) hslots b hb
          rw [hstart, List.length_append, List.length_singleton, Nat.add_assoc]

/-- **The lines of a batch stand at consecutive positions.** -/
theorem exists_isRun_of_mem_divide {slots : List Slot} {start : Nat}
    (h : Slot.InPlace start slots) : ∀ b ∈ divide slots, ∃ s, IsRun s b :=
  exists_isRun_of_mem_divideFrom [] 0 0 start trivial (by simp) h

/-- The last line of a batch is written below a position. -/
def EndsBy (batch : Batch) (position : Nat) : Prop :=
  ∀ l ∈ batch.head?, l.index.toNat + batch.length ≤ position

theorem endsBy_of_mem_divideFrom {items : Table CacheItem} {count start size : Nat} {batch : Batch}
    {slots : List Slot} (h : Slot.ofItems items count start = .ok slots)
    (hbatch : batch.EndsBy start) :
    ∀ b ∈ divideFrom batch size slots, b.EndsBy (start + count) := by
  induction count generalizing start slots batch size with
  | zero =>
    cases h
    intro b hb
    rw [divideFrom] at hb
    split at hb
    · cases hb
    · obtain rfl := List.mem_singleton.1 hb
      exact hbatch
  | succ count ih =>
    obtain ⟨slot, rest, rfl, hslot, hrest⟩ := Slot.ofItems_succ h
    have hclosed : batch.EndsBy (start + (count + 1)) := fun l hl => by
      have := hbatch l hl
      omega
    rw [Nat.add_comm count, ← Nat.add_assoc] at hclosed ⊢
    intro b hb
    cases slot with
    | written =>
      have hnext : ∀ b ∈ divideFrom [] 0 rest, b.EndsBy (start + 1 + count) :=
        ih hrest (by simp [EndsBy])
      rw [divideFrom] at hb
      split at hb
      · exact hnext b hb
      · obtain rfl | hb := List.mem_cons.1 hb
        · exact hclosed
        · exact hnext b hb
    | line l =>
      have hl : l.index.toNat ≤ start :=
        Table.toNat_index_le_of_pendingLine? (Slot.line?_of_ofItem hslot).symm
      rw [divideFrom] at hb
      split at hb
      · obtain rfl | hb := List.mem_cons.1 hb
        · exact hclosed
        · exact ih hrest (by simpa [EndsBy] using hl) b hb
      · refine ih hrest ?_ b hb
        cases batch with
        | nil => simpa [EndsBy] using hl
        | cons l₀ ls => simpa [EndsBy, ← Nat.add_assoc] using hbatch

/-- **A batch ends where the slots do, if not before.** This holds even if there are so many that
positions of 32 bits wrap around. -/
theorem endsBy_of_mem_divide {items : Table CacheItem} {count : Nat} {slots : List Slot}
    (h : Slot.ofItems items count 0 = .ok slots) : ∀ b ∈ divide slots, b.EndsBy count := by
  have hall : ∀ b ∈ divide slots, b.EndsBy (0 + count) :=
    endsBy_of_mem_divideFrom h (by simp [EndsBy])
  rwa [Nat.zero_add] at hall

/-- The bytes of the lines of a batch. -/
def size (batch : Batch) : Nat := (batch.map ConfigLine.size).sum

/-- What a transaction of lines can hold. -/
structure WithinLimits (batch : Batch) : Prop where
  ne_nil : batch ≠ []
  length_le : batch.length ≤ maxLines
  size_le : batch.size ≤ maxBytes

theorem size_append (b c : Batch) : size (b ++ c) = b.size + c.size := by
  simp [size]

theorem size_singleton (l : ConfigLine) : size [l] = l.size := by
  simp [size]

theorem limits_of_mem_divideFrom {batch : Batch} {slots : List Slot}
    (hlength : batch.length ≤ maxLines) (hsize : batch.size ≤ maxBytes)
    (hlines : ∀ l ∈ slots.filterMap Slot.line?, l.size ≤ maxBytes) :
    ∀ b ∈ divideFrom batch batch.size slots, WithinLimits b := by
  induction slots generalizing batch with
  | nil =>
    intro b hb
    cases batch with
    | nil => cases hb
    | cons l ls =>
      obtain rfl := List.mem_singleton.1 hb
      exact ⟨by simp, hlength, hsize⟩
  | cons slot slots ih =>
    cases slot with
    | written =>
      have hrest : ∀ b ∈ divideFrom [] 0 slots, WithinLimits b :=
        ih (Nat.zero_le _) (Nat.zero_le _) hlines
      intro b hb
      cases batch with
      | nil => exact hrest b hb
      | cons l ls =>
        obtain rfl | hb := List.mem_cons.1 hb
        · exact ⟨by simp, hlength, hsize⟩
        · exact hrest b hb
    | line l =>
      have hcons : (Slot.line l :: slots).filterMap Slot.line? =
          l :: slots.filterMap Slot.line? := List.filterMap_cons_some rfl
      rw [hcons] at hlines
      have hl : l.size ≤ maxBytes := hlines l (List.mem_cons_self ..)
      have hrest : ∀ l ∈ slots.filterMap Slot.line?, l.size ≤ maxBytes := fun l h =>
        hlines l (List.mem_cons_of_mem _ h)
      intro b hb
      rw [divideFrom] at hb
      split at hb
      · next hfull =>
        obtain rfl | hb := List.mem_cons.1 hb
        · refine ⟨?_, hlength, hsize⟩
          rintro rfl
          rw [size, List.map_nil, List.sum_nil, List.length_nil] at hfull
          obtain h | h := hfull
          · omega
          · cases h
        · rw [← size_singleton] at hb hl
          have hlength : [l].length ≤ maxLines := Nat.succ_le_succ (Nat.zero_le 16)
          exact ih hlength hl hrest b hb
      · next hopen =>
        rw [not_or] at hopen
        rw [← size_singleton l, ← size_append] at hb
        refine ih ?_ ?_ hrest b hb
        · rw [List.length_append, List.length_singleton]
          omega
        · rw [size_append, size_singleton]
          omega

/-- **Batches are within the limits of a transaction** if each line alone is. -/
theorem limits_of_mem_divide {slots : List Slot}
    (h : ∀ l ∈ slots.filterMap Slot.line?, l.size ≤ maxBytes) :
    ∀ b ∈ divide slots, WithinLimits b :=
  limits_of_mem_divideFrom (Nat.zero_le _) (Nat.zero_le _) h

theorem size_le_of_mem {batch : Batch} {l : ConfigLine} (h : l ∈ batch) :
    l.size ≤ batch.size := by
  induction batch with
  | nil => cases h
  | cons b bs ih =>
    have hcons : size (b :: bs) = b.size + size bs := by simp [size]
    obtain rfl | h := List.mem_cons.1 h
    · omega
    · have := ih h
      omega

theorem WithinLimits.readable {batch : Batch} (h : batch.WithinLimits) : batch.Readable := by
  have hlength := h.length_le
  have hsize := h.size_le
  simp only [maxLines, maxBytes] at hlength hsize
  refine ⟨by omega, fun l hl => ?_⟩
  have hline := size_le_of_mem hl
  rw [ConfigLine.size] at hline
  omega

/-- A batch that writes each of its lines at the position of that line. -/
structure Sendable (batch : Batch) : Prop extends WithinLimits batch where
  isRun : ∃ s, IsRun s batch

section

variable {count : UInt64} {items : Table CacheItem} {batches : List Batch}

theorem ofItems_eq_ok_iff : ofItems count items = .ok batches ↔
    ∃ slots, Slot.ofItems items count.toNat 0 = .ok slots ∧ batches = divide slots := by
  rw [ofItems, except_bind_eq_ok_iff]
  simp only [pure, Except.pure, Except.ok.injEq, eq_comm]

theorem flatten_of_ofItems (h : ofItems count items = .ok batches) :
    batches.flatten = items.pendingLines count.toNat := by
  obtain ⟨slots, hslots, rfl⟩ := ofItems_eq_ok_iff.1 h
  rw [flatten_divide, Slot.filterMap_line?_of_ofItems hslots, Table.pendingLines,
    List.range_eq_range']

theorem limits_of_ofItems (h : ofItems count items = .ok batches)
    (hsize : ∀ l ∈ items.pendingLines count.toNat, l.size ≤ maxBytes) :
    ∀ b ∈ batches, b.WithinLimits := by
  obtain ⟨slots, hslots, rfl⟩ := ofItems_eq_ok_iff.1 h
  rw [← flatten_of_ofItems h, flatten_divide] at hsize
  exact limits_of_mem_divide hsize

theorem endsBy_of_ofItems (h : ofItems count items = .ok batches) :
    ∀ b ∈ batches, b.EndsBy count.toNat := by
  obtain ⟨slots, hslots, rfl⟩ := ofItems_eq_ok_iff.1 h
  exact endsBy_of_mem_divide hslots

/-- **Every batch that is cut from a record can be sent.** -/
theorem sendable_of_ofItems (h : ofItems count items = .ok batches)
    (hsize : ∀ l ∈ items.pendingLines count.toNat, l.size ≤ maxBytes)
    (hcount : count.toNat ≤ 2 ^ 32) : ∀ b ∈ batches, b.Sendable := by
  intro b hb
  refine ⟨limits_of_ofItems h hsize b hb, ?_⟩
  obtain ⟨slots, hslots, rfl⟩ := ofItems_eq_ok_iff.1 h
  exact exists_isRun_of_mem_divide (Slot.inPlace_of_ofItems hslots (by omega)) b hb

end

/-! ## What batches write -/

/-- The call that writes a batch. -/
def call (machine : Address) (batch : Batch) : LineCall where
  machine := machine
  start := (batch.head?.map fun l => l.index.toNat).getD 0
  lines := batch.map fun l => (l.name, l.uri)

theorem size_call (machine : Address) (batch : Batch) : (batch.call machine).size = batch.size := by
  rw [LineCall.size, call, List.map_map]
  rfl

theorem entriesFrom_of_isRun {start : Nat} {batch : Batch} (h : IsRun start batch) :
    LineCall.entriesFrom start (batch.map fun l => (l.name, l.uri)) =
      batch.map ConfigLine.entry := by
  induction batch generalizing start with
  | nil => rfl
  | cons l ls ih =>
    obtain ⟨hl, hrest⟩ := h
    rw [List.map_cons, LineCall.entriesFrom, ih hrest, List.map_cons, ConfigLine.entry, hl]

/-- **A batch that is sent writes its lines where they belong.** -/
theorem entries_call (machine : Address) {batch : Batch} (h : batch.Sendable) :
    (batch.call machine).entries = batch.map ConfigLine.entry := by
  obtain ⟨s, hrun⟩ := h.isRun
  cases batch with
  | nil => rfl
  | cons l ls =>
    rw [LineCall.entries, ← entriesFrom_of_isRun hrun]
    exact congrArg (LineCall.entriesFrom · _) hrun.1

variable {payer machine : Address} {batches : List Batch}

/-- The transactions of batches. -/
def transactions (payer machine : Address) (batches : List Batch) : List Transaction :=
  batches.filterMap (transaction? payer machine)

theorem transactions_append (bs cs : List Batch) :
    transactions payer machine (bs ++ cs) =
      transactions payer machine bs ++ transactions payer machine cs :=
  List.filterMap_append

theorem lineCalls_transactions (h : ∀ b ∈ batches, b.WithinLimits) :
    (transactions payer machine batches).flatMap Transaction.lineCalls =
      batches.map (call machine) := by
  induction batches with
  | nil => rfl
  | cons b bs ih =>
    have hb := h b (List.mem_cons_self ..)
    have hrest := ih fun c hc => h c (List.mem_cons_of_mem _ hc)
    cases b with
    | nil => exact absurd rfl hb.ne_nil
    | cons l ls =>
      have ht : transaction? payer machine (l :: ls) =
          some ⟨[Instruction.addConfigLines machine payer l.index (l :: ls)], []⟩ := rfl
      rw [transactions, List.filterMap_cons_some ht, List.flatMap_cons,
        lineCalls_transaction hb.readable ht, ← transactions, hrest]
      rfl

theorem createdMachines_transactions (payer machine : Address) (batches : List Batch) :
    ∀ t ∈ transactions payer machine batches, t.createdMachines = [] := by
  intro t ht
  obtain ⟨b, -, h⟩ := List.mem_filterMap.1 ht
  exact createdMachines_transaction h

theorem collectionCalls_transactions (payer machine : Address) (batches : List Batch) :
    ∀ t ∈ transactions payer machine batches, t.collectionCalls = [] := by
  intro t ht
  obtain ⟨b, -, h⟩ := List.mem_filterMap.1 ht
  exact collectionCalls_transaction h

/-- Calls of batches write the lines of the batches. -/
theorem flatMap_entries_call (h : ∀ b ∈ batches, b.Sendable) :
    (batches.map (call machine)).flatMap LineCall.entries =
      batches.flatten.map ConfigLine.entry := by
  rw [List.flatMap_map, List.map_flatten, List.flatMap_def]
  exact congrArg List.flatten (List.map_congr_left fun b hb => entries_call machine (h b hb))

/-- **What batches write to their machine**: all of their lines, and nothing else. -/
theorem entries_transactions (h : ∀ b ∈ batches, b.Sendable) :
    Accepted.entries machine (transactions payer machine batches) =
      batches.flatten.map ConfigLine.entry := by
  have hsame : (batches.map (call machine)).filter (·.machine = machine) =
      batches.map (call machine) := List.filter_eq_self.2 (by simp [call])
  rw [Accepted.entries, lineCalls_transactions fun b hb => (h b hb).toWithinLimits, hsame,
    flatMap_entries_call h]

end Batch

end CandyDrop
