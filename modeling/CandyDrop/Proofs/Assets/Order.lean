import CandyDrop.Assets.Basic
import CandyDrop.Proofs.Script.Runs

/-!
# The order of a folder does not matter

A folder is listed in whatever order the system gives. Manifests have different numbers, since these
grow by one from manifest to manifest (`pairwise_lt_of_gap?`), so sorting them leaves no choice, and
the manifests of a collection are the same for every order of its folder (`ofEntries_perm`).
-/

namespace CandyDrop.Assets

variable {folder : String} {entries entries' : List FolderEntry} {ps qs ms : List String}
  {is js : List (UInt64 × String)} {assets : Assets}

theorem indexed_perm (h : indexed ps = .ok is) (hperm : ps.Perm qs) :
    ∃ js, indexed qs = .ok js ∧ is.Perm js := by
  induction hperm generalizing is with
  | nil => exact ⟨is, h, .refl is⟩
  | cons p _ ih =>
    simp only [indexed, except_bind_eq_ok_iff] at h
    obtain ⟨n, hn, rest, hrest, h⟩ := h
    obtain ⟨rest', hrest', hperm⟩ := ih hrest
    cases h
    refine ⟨(n, p) :: rest', ?_, hperm.cons _⟩
    rw [indexed, hn, hrest']
    rfl
  | swap p q _ =>
    simp only [indexed, except_bind_eq_ok_iff] at h
    obtain ⟨n, hn, _, ⟨m, hm, rest, hrest, h'⟩, h⟩ := h
    cases h'
    cases h
    refine ⟨(m, p) :: (n, q) :: rest, ?_, .swap _ _ _⟩
    rw [indexed, indexed, hn, hm, hrest]
    rfl
  | trans _ _ ih₁ ih₂ =>
    obtain ⟨ks, hks, hperm₁⟩ := ih₁ h
    obtain ⟨js, hjs, hperm₂⟩ := ih₂ hks
    exact ⟨js, hjs, hperm₁.trans hperm₂⟩

theorem gap?_cons_eq_none_iff {expected n : UInt64} {p : String} :
    gap? expected ((n, p) :: is) = none ↔ n = expected ∧ gap? (expected + 1) is = none := by
  rw [gap?]
  split
  · next h => simp [h]
  · next h => simp [h]

/-- Numbers in order and without gaps are different from each other. -/
theorem pairwise_lt_of_gap? {expected : UInt64} (hgap : gap? expected is = none)
    (hle : is.Pairwise fun a b => a.1 ≤ b.1) : is.Pairwise fun a b => a.1 < b.1 := by
  induction is generalizing expected with
  | nil => exact .nil
  | cons a rest ih =>
    obtain ⟨n, p⟩ := a
    obtain ⟨hfirst, hrest⟩ := List.pairwise_cons.1 hle
    obtain ⟨rfl, hgap⟩ := gap?_cons_eq_none_iff.1 hgap
    have hlt := ih hgap hrest
    refine List.pairwise_cons.2 ⟨fun b hb => ?_, hlt⟩
    -- The number after `n` is `n + 1`, and every later one is above that.
    cases rest with
    | nil => cases hb
    | cons c rest =>
      obtain ⟨m, q⟩ := c
      obtain ⟨rfl, -⟩ := gap?_cons_eq_none_iff.1 hgap
      have hnext : n < n + 1 := by
        have hle : n ≤ n + 1 := hfirst _ (List.mem_cons_self ..)
        have hne : n ≠ n + 1 := by
          intro heq
          have hnat := congrArg UInt64.toNat heq
          have hlt := n.toNat_lt
          simp only [UInt64.toNat_add, UInt64.toNat_one] at hnat
          omega
        exact UInt64.lt_of_le_of_ne hle hne
      rcases List.mem_cons.1 hb with rfl | hb
      · exact hnext
      · exact UInt64.lt_trans hnext ((List.pairwise_cons.1 hlt).1 b hb)

theorem pairwise_mergeSort (is : List (UInt64 × String)) :
    (is.mergeSort indexLE).Pairwise fun a b => a.1 ≤ b.1 := by
  have hsorted : (is.mergeSort indexLE).Pairwise fun a b => indexLE a b = true := by
    apply List.pairwise_mergeSort
    · intro a b c hab hbc
      exact decide_eq_true (UInt64.le_trans (of_decide_eq_true hab) (of_decide_eq_true hbc))
    · intro a b
      simp only [indexLE, Bool.or_eq_true, decide_eq_true_eq]
      exact UInt64.le_total a.1 b.1
  exact hsorted.imp fun h => of_decide_eq_true h

theorem inOrder_eq_ok_iff : inOrder ps = .ok ms ↔
    ∃ is, indexed ps = .ok is ∧ (∃ first, gap? first (is.mergeSort indexLE) = none) ∧
      ms = (is.mergeSort indexLE).map Prod.snd := by
  simp only [inOrder, except_bind_eq_ok_iff]
  refine exists_congr fun is => and_congr_right fun _ => ?_
  generalize is.mergeSort indexLE = sorted
  cases sorted with
  | nil => simp [gap?, pure, Except.pure, eq_comm]
  | cons a rest =>
    obtain ⟨n, p⟩ := a
    constructor
    · intro h
      dsimp only at h
      split at h
      · cases h
      · next hgap =>
        cases h
        exact ⟨⟨n, hgap⟩, rfl⟩
    · rintro ⟨⟨first, hgap⟩, rfl⟩
      obtain ⟨rfl, -⟩ := gap?_cons_eq_none_iff.1 hgap
      dsimp only
      rw [hgap]
      rfl

/-- Paths in any order give the same manifests. -/
theorem inOrder_perm (h : inOrder ps = .ok ms) (hperm : ps.Perm qs) : inOrder qs = .ok ms := by
  obtain ⟨is, his, ⟨first, hgap⟩, rfl⟩ := inOrder_eq_ok_iff.1 h
  obtain ⟨js, hjs, hsame⟩ := indexed_perm his hperm
  have hsorted : (is.mergeSort indexLE).Perm (js.mergeSort indexLE) :=
    (List.mergeSort_perm is _).trans (hsame.trans (List.mergeSort_perm js _).symm)
  have hlt := pairwise_lt_of_gap? hgap (pairwise_mergeSort is)
  have hne : (js.mergeSort indexLE).Pairwise fun a b => a.1 ≠ b.1 :=
    (hlt.imp UInt64.ne_of_lt).perm hsorted Ne.symm
  have hlt' : (js.mergeSort indexLE).Pairwise fun a b => a.1 < b.1 :=
    (hne.and (pairwise_mergeSort js)).imp fun h => UInt64.lt_of_le_of_ne h.2 h.1
  have heq : js.mergeSort indexLE = is.mergeSort indexLE := by
    refine List.Perm.eq_of_pairwise (fun a b _ _ hab hba => ?_) hlt' hlt hsorted.symm
    exact absurd (UInt64.lt_trans hab hba) (UInt64.lt_irrefl a.1)
  exact inOrder_eq_ok_iff.2 ⟨js, hjs, ⟨first, heq ▸ hgap⟩, by rw [heq]⟩

/-- The same files in another order, which does not matter for the manifests. -/
structure Reordered (assets assets' : Assets) : Prop where
  images : assets.images.Perm assets'.images
  animations : assets.animations.Perm assets'.animations
  manifests : assets'.manifests = assets.manifests

/-- **The manifests of a collection do not depend on the order of its folder.** -/
theorem ofEntries_perm (h : ofEntries folder entries = .ok assets)
    (hperm : entries.Perm entries') :
    ∃ assets', ofEntries folder entries' = .ok assets' ∧ assets.Reordered assets' := by
  obtain ⟨ms, hms, h⟩ := except_bind_eq_ok_iff.1 h
  cases h
  have hpaths : (paths folder entries).Perm (paths folder entries') := (hperm.filter _).map _
  have hms' : inOrder (ofKind .manifest (paths folder entries')) = .ok ms :=
    inOrder_perm hms (hpaths.filter _)
  refine ⟨⟨ofKind .image (paths folder entries'), ofKind .animation (paths folder entries'), ms⟩,
    ?_, hpaths.filter _, hpaths.filter _, rfl⟩
  rw [ofEntries, hms']
  rfl

end CandyDrop.Assets
