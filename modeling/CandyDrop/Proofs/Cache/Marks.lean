import CandyDrop.Cache.File
import CandyDrop.Text.Integer
import Mathlib.Data.List.Nodup

/-!
# Marking items as written

What writing lines does to a record: the items at some positions are taken for written, and nothing
else changes (`Cache.Marks`). Saving a record puts its items in order, which is not a change here,
so that marking and saving can alternate (`Marks.trans`).
-/

namespace CandyDrop

/-- The decimal texts of two numbers are different. -/
theorem Text.repr_inj {m n : Nat} : m.repr = n.repr ↔ m = n := by
  constructor
  · intro h
    have hm := digits?_repr m
    rw [h, digits?_repr n] at hm
    exact (Option.some.inj hm).symm
  · rintro rfl
    rfl

namespace Table

variable {α : Type} {s t : Table α}

theorem perm_of_get? (h : ∀ k, s.get? k = t.get? k) : s.entries.Perm t.entries := by
  refine (List.perm_ext_iff_of_nodup s.nodup_keys.of_map t.nodup_keys.of_map).2 fun e => ?_
  rw [← get?_eq_some_iff, ← get?_eq_some_iff, h]

theorem pairwise_sorted (t : Table α) : t.sorted.entries.Pairwise fun a b => keyLE a b = true := by
  apply List.pairwise_mergeSort
  · intro a b c hab hbc
    exact decide_eq_true (String.le_trans (of_decide_eq_true hab) (of_decide_eq_true hbc))
  · intro a b
    simp only [keyLE, Bool.or_eq_true, decide_eq_true_eq]
    exact String.le_total a.1 b.1

/-- Tables that mean the same are equal once they are in order. -/
theorem sorted_congr (h : ∀ k, s.get? k = t.get? k) : s.sorted = t.sorted := by
  have hget : ∀ k, s.sorted.get? k = t.sorted.get? k := fun k => by
    rw [get?_sorted, get?_sorted, h]
  have heq : s.sorted.entries = t.sorted.entries := by
    refine (perm_of_get? hget).eq_of_pairwise (fun a b ha hb hab hba => ?_) (pairwise_sorted s)
      (pairwise_sorted t)
    have hkey : a.1 = b.1 := String.le_antisymm (of_decide_eq_true hab) (of_decide_eq_true hba)
    have hvalue : some a.2 = some b.2 := by
      rw [← get?_eq_some_iff.2 ha, ← get?_eq_some_iff.2 hb, hget, hkey]
    exact Prod.ext hkey (Option.some.inj hvalue)
  cases hs : s.sorted
  cases ht : t.sorted
  rw [hs, ht] at heq
  cases heq
  rfl

end Table

namespace Cache

theorem get?_ordered (c : Cache) (k : String) : c.ordered.items.get? k = c.items.get? k :=
  Table.get?_sorted c.items k

/-- A record in the order of its file stays as it is. -/
theorem ordered_ordered (c : Cache) : c.ordered.ordered = c.ordered :=
  congrArg (fun items => { c with items }) (Table.sorted_congr (Table.get?_sorted c.items))

/-- `c'` is `c` with the items at some positions taken for written. -/
structure Marks (c c' : Cache) (positions : List Nat) : Prop where
  program : c'.program = c.program
  path : c'.path = c.path
  get? : ∀ k, c'.items.get? k = (c.items.get? k).map fun item =>
    { item with onChain := item.onChain || positions.any fun i => decide (k = i.repr) }

theorem Marks.refl (c : Cache) : Marks c c [] := by
  refine ⟨rfl, rfl, fun k => ?_⟩
  cases c.items.get? k <;> simp

theorem Marks.trans {c c' c'' : Cache} {ps qs : List Nat} (h : Marks c c' ps)
    (h' : Marks c' c'' qs) : Marks c c'' (ps ++ qs) := by
  refine ⟨h'.program.trans h.program, h'.path.trans h.path, fun k => ?_⟩
  rw [h'.get?, h.get?, Option.map_map]
  cases c.items.get? k <;> simp [Bool.or_assoc]

theorem Marks.ordered {c c' : Cache} {ps : List Nat} (h : Marks c c' ps) :
    Marks c c'.ordered ps := by
  refine ⟨h.program, h.path, fun k => ?_⟩
  rw [get?_ordered]
  exact h.get? k

theorem marks_markWritten (c : Cache) (positions : List Nat) :
    Marks c (c.markWritten positions) positions := by
  refine ⟨rfl, rfl, fun k => ?_⟩
  unfold markWritten
  generalize c.items = items
  induction positions generalizing items with
  | nil => cases h : items.get? k <;> simp [h]
  | cons i is ih =>
    simp only [List.foldl_cons]
    rw [ih, Table.get?_modify]
    by_cases hk : k = i.repr
    · cases h : items.get? k <;> simp [hk]
    · cases h : items.get? k <;> simp [hk]

/-- At a position an item is on the chain afterwards if it was before or the position is one of
those that were written. -/
theorem Marks.get?_repr {c c' : Cache} {ps : List Nat} (h : Marks c c' ps) (i : Nat) :
    c'.items.get? i.repr = (c.items.get? i.repr).map fun item =>
      { item with onChain := item.onChain || decide (i ∈ ps) } := by
  have hany : (ps.any fun j => decide (i.repr = j.repr)) = decide (i ∈ ps) := by
    rw [Bool.eq_iff_iff]
    simp only [List.any_eq_true, decide_eq_true_eq, Text.repr_inj, exists_eq_right']
  rw [h.get?, hany]

end Cache

end CandyDrop
