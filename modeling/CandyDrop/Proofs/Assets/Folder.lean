import CandyDrop.Proofs.Assets.Names
import CandyDrop.Proofs.Assets.Order
import Mathlib.Data.List.Perm.Basic

/-!
# What a folder gives

Each visible file of a folder is an image, an animation or a manifest by its extension, or it is
skipped with a warning (`perm_visible`). Manifests are put in the order of their numbers
(`Ascending`), and the folder is refused unless these go on by one from the first of them: the
manifest at the first position where they leave this line is reported with the number that is missed
there, counted modulo `2^64` (`gap?_ofNat`). What the folder gives in all, by the names in it, is
`Result`.

The numbers in ascending order are the same for every order in which the folder is listed
(`Ascending.numbers_eq`), so neither the manifests nor the number that is missed depend on it.
-/

namespace CandyDrop.Assets

open FolderEntry (path HasNumber)

/-! ## Files by their kinds -/

/-- The visible files of a kind, in the order of the folder. -/
def filesOf (kind : AssetKind) (entries : List FolderEntry) : List FolderEntry :=
  entries.filter fun e => e.IsFileOf kind

/-- The visible files of no kind. -/
def others (entries : List FolderEntry) : List FolderEntry := entries.filter fun e => e.IsOther

/-- The warnings about the files that are skipped, with their answers. -/
def warned (folder : String) (entries : List FolderEntry) : List Event :=
  (others entries).map fun e =>
    ⟨.warn ("Skipping unsupported file type " ++ Text.quoted (e.path folder)), ()⟩

variable {folder : String} {entries entries' files files' : List FolderEntry} {kind : AssetKind}
  {is : List (UInt64 × String)} {ps : List String} {numbers numbers' : List Nat}
  {N first first' p p' : Nat} {assets : Assets}

theorem mem_filesOf_iff {e : FolderEntry} :
    e ∈ filesOf kind entries ↔ e ∈ entries ∧ e.IsFileOf kind := by
  rw [filesOf, List.mem_filter, decide_eq_true_iff]

theorem paths_eq (folder : String) (entries : List FolderEntry) :
    paths folder entries = (entries.filter fun e => e.IsVisible).map (path folder) := by
  have hsame : ∀ e ∈ entries, counts e = decide e.IsVisible := fun e _ =>
    Bool.eq_iff_iff.2 (FolderEntry.counts_iff.trans decide_eq_true_iff.symm)
  rw [paths, List.filter_congr hsame]
  rfl

/-- Files are told apart by their names. -/
theorem ofKind_paths (hlistable : ∀ e ∈ entries, e.IsListable) :
    ofKind kind (paths folder entries) = (filesOf kind entries).map (path folder) := by
  rw [ofKind, paths_eq, List.filter_map, filesOf, List.filter_filter]
  refine congrArg _ (List.filter_congr fun e he => ?_)
  rw [Bool.eq_iff_iff, Bool.and_eq_true, decide_eq_true_iff, decide_eq_true_iff,
    Function.comp_apply, beq_iff_eq]
  constructor
  · rintro ⟨hkind, hvisible⟩
    have hname := e.fileName?_path folder (hlistable e he) hvisible
    exact ⟨hvisible, (FolderEntry.ofPath?_eq_some_iff hname).1 hkind⟩
  · intro hfile
    have hname := e.fileName?_path folder (hlistable e he) hfile.isVisible
    exact ⟨(FolderEntry.ofPath?_eq_some_iff hname).2 hfile.hasExtension, hfile.isVisible⟩

theorem warnings_eq (hlistable : ∀ e ∈ entries, e.IsListable) :
    warnings folder entries = (others entries).map fun e =>
      "Skipping unsupported file type " ++ Text.quoted (e.path folder) := by
  rw [warnings, paths_eq, List.filter_map, List.map_map, others, List.filter_filter]
  refine congrArg _ (List.filter_congr fun e he => ?_)
  rw [Bool.eq_iff_iff, Bool.and_eq_true, decide_eq_true_iff, decide_eq_true_iff,
    Function.comp_apply, beq_iff_eq, Option.eq_none_iff_forall_ne_some]
  constructor
  · rintro ⟨hnone, hvisible⟩
    have hname := e.fileName?_path folder (hlistable e he) hvisible
    exact ⟨hvisible, fun kind hkind =>
      hnone kind ((FolderEntry.ofPath?_eq_some_iff hname).2 hkind)⟩
  · intro hother
    have hname := e.fileName?_path folder (hlistable e he) hother.isVisible
    exact ⟨fun kind hkind => hother.hasNoExtension kind
      ((FolderEntry.ofPath?_eq_some_iff hname).1 hkind), hother.isVisible⟩

theorem count_filter_eq (P : FolderEntry → Prop) [DecidablePred P] (e : FolderEntry) :
    (entries.filter fun e => P e).count e = if P e then entries.count e else 0 := by
  split
  · next h => exact List.count_filter (decide_eq_true h)
  · next h =>
    refine List.count_eq_zero.2 fun he => h ?_
    exact of_decide_eq_true (List.mem_filter.1 he).2

/-- Every visible file is of one kind or skipped. -/
theorem perm_visible (entries : List FolderEntry) :
    (filesOf .image entries ++ filesOf .animation entries ++ filesOf .manifest entries ++
      others entries).Perm (entries.filter fun e => e.IsVisible) := by
  refine List.perm_iff_count.2 fun e => ?_
  simp only [filesOf, others, List.count_append, count_filter_eq, FolderEntry.isFileOf_iff,
    FolderEntry.isOther_iff]
  by_cases hvisible : e.IsVisible
  · simp only [hvisible, true_and, if_true]
    by_cases himage : e.HasExtensionOf .image
    · have hanimation : ¬e.HasExtensionOf .animation := fun h => by cases himage.unique h
      have hmanifest : ¬e.HasExtensionOf .manifest := fun h => by cases himage.unique h
      simp [himage, hanimation, hmanifest]
    · by_cases hanimation : e.HasExtensionOf .animation
      · have hmanifest : ¬e.HasExtensionOf .manifest := fun h => by cases hanimation.unique h
        simp [himage, hanimation, hmanifest]
      · by_cases hmanifest : e.HasExtensionOf .manifest <;> simp [himage, hanimation, hmanifest]
  · simp [hvisible]

/-! ## Numbers in ascending order -/

/-- The numbers of files by the paths that they were read off. -/
def numbersOf (is : List (UInt64 × String)) : List Nat := is.map fun x => x.1.toNat

/-- The manifests of a folder in the order of their numbers. -/
structure Ascending (entries files : List FolderEntry) (numbers : List Nat) : Prop where
  perm : files.Perm (filesOf .manifest entries)
  hasNumbers : List.Forall₂ HasNumber files numbers
  le : numbers.Pairwise (· ≤ ·)

/-- Numbers go on from the first one by one, up to a position where they do not. -/
structure LeavesAt (numbers : List Nat) (first p : Nat) : Prop where
  head : numbers.head? = some first
  before : ∀ q < p, numbers[q]? = some (first + q)
  lt : p < numbers.length
  ne : numbers[p]? ≠ some (first + p)

/-- Numbers leave the line once, and numbers that go on by one do not leave it. -/
theorem LeavesAt.unique (h : LeavesAt numbers first p) (h' : LeavesAt numbers first' p') :
    first = first' ∧ p = p' := by
  obtain rfl := Option.some.inj (h.head.symm.trans h'.head)
  refine ⟨rfl, ?_⟩
  rcases Nat.lt_trichotomy p p' with hlt | heq | hgt
  · exact absurd (h'.before p hlt) h.ne
  · exact heq
  · exact absurd (h.before p' hgt) h'.ne

theorem not_leavesAt_range' {n : Nat} : ¬LeavesAt (List.range' first' n) first p := by
  intro h
  have hp : p < n := by simpa using h.lt
  have hfirst : first' = first := by
    have hhead := h.head
    cases n with
    | zero => cases hp
    | succ n => simpa [List.range'_succ] using hhead
  exact h.ne (by rw [List.getElem?_range' hp, Nat.one_mul, hfirst])

/-- **The numbers of manifests in ascending order** do not depend on the order of the folder. -/
theorem Ascending.numbers_eq (h : Ascending entries files numbers)
    (h' : Ascending entries files' numbers') : numbers = numbers' := by
  have hfiles : files.Perm files' := h.perm.trans h'.perm.symm
  obtain ⟨ns, hns, hperm⟩ := List.perm_comp_forall₂ hfiles h'.hasNumbers
  have hunique : Relator.RightUnique HasNumber := fun _ _ _ => FolderEntry.HasNumber.unique
  have hsame : numbers = ns := List.right_unique_forall₂' hunique h.hasNumbers hns
  subst hsame
  exact hperm.eq_of_pairwise (fun _ _ _ _ => Nat.le_antisymm) h.le h'.le

/-- **The first number that is missed** is counted modulo `2^64` from the first one on. -/
theorem gap?_ofNat (hle : is.Pairwise fun a b => a.1 ≤ b.1) (hN : ∀ x ∈ is, N ≤ x.1.toNat + 1) :
    (gap? (UInt64.ofNat N) is = none ∧ numbersOf is = List.range' N is.length) ∨
      ∃ p x, is[p]? = some x ∧ (∀ q < p, (numbersOf is)[q]? = some (N + q)) ∧ x.1.toNat ≠ N + p ∧
        gap? (UInt64.ofNat N) is = some (.gap (UInt64.ofNat (N + p)) x.2) := by
  induction is generalizing N with
  | nil => exact .inl ⟨rfl, rfl⟩
  | cons x rest ih =>
    obtain ⟨n, path⟩ := x
    obtain ⟨hfirst, hrest⟩ := List.pairwise_cons.1 hle
    have hn : N ≤ n.toNat + 1 := hN _ (List.mem_cons_self ..)
    -- What follows on the greatest number of 64 bits is zero, which is below the files that are left.
    have hexpected : n = UInt64.ofNat N ↔ n.toNat = N := by
      have hlt := n.toNat_lt
      rw [← UInt64.toNat_inj, UInt64.toNat_ofNat']
      constructor <;> intro h <;> omega
    by_cases heq : n.toNat = N
    · have hnext : UInt64.ofNat N + 1 = UInt64.ofNat (N + 1) := by
        rw [← UInt64.toNat_inj]
        simp
      have hN' : ∀ x ∈ rest, N + 1 ≤ x.1.toNat + 1 := fun x hx => by
        have hle : n.toNat ≤ x.1.toNat := UInt64.le_iff_toNat_le.1 (hfirst x hx)
        omega
      rw [gap?, if_pos (hexpected.2 heq), hnext]
      rcases ih hrest hN' with ⟨hnone, hnumbers⟩ | ⟨p, x, hx, hbefore, hne, hgap⟩
      · refine .inl ⟨hnone, ?_⟩
        rw [List.length_cons, List.range'_succ, ← hnumbers, ← heq]
        rfl
      · have hshift : ∀ q, N + (q + 1) = N + 1 + q := fun q => by omega
        refine .inr ⟨p + 1, x, hx, fun q hq => ?_, by omega, by rw [hgap, hshift p]⟩
        cases q with
        | zero => exact congrArg some heq
        | succ q =>
          rw [hshift]
          exact hbefore q (by omega)
    · rw [gap?, if_neg fun h => heq (hexpected.1 h)]
      exact .inr ⟨0, (n, path), rfl, fun q hq => absurd hq (Nat.not_lt_zero q), heq, rfl⟩

/-! ## What the names of a folder come to -/

/-- A file with its number, by its path. -/
structure Numbers (folder : String) (e : FolderEntry) (x : UInt64 × String) : Prop where
  path : x.2 = e.path folder
  hasNumber : e.HasNumber x.1.toNat

/-- The first file whose name is no number ends the search. -/
theorem indexed_files (hfiles : ∀ e ∈ files, e.IsListable ∧ e.IsFileOf .manifest) :
    (∃ is, indexed (files.map (path folder)) = .ok is ∧ List.Forall₂ (Numbers folder) files is) ∨
      ∃ e ∈ files, (∀ n, ¬e.HasNumber n) ∧
        indexed (files.map (path folder)) = .error (.invalidFileName e.name) := by
  induction files with
  | nil => exact .inl ⟨[], rfl, .nil⟩
  | cons e files ih =>
    rw [List.forall_mem_cons] at hfiles
    obtain ⟨⟨hlistable, hfile⟩, hfiles⟩ := hfiles
    obtain ⟨stem, extension, hsplits, -⟩ := hfile.hasExtension
    have hname := e.fileName?_path folder hlistable hfile.isVisible
    rw [List.map_cons, indexed]
    cases hnumber : Text.uint64? stem with
    | none =>
      rw [FolderEntry.index_eq_error hname hsplits hnumber]
      refine .inr ⟨e, List.mem_cons_self .., ?_, rfl⟩
      rintro n ⟨stem', extension', m, hsplits', hm, -⟩
      obtain ⟨rfl, -⟩ := hsplits.unique hsplits'
      cases hnumber.symm.trans hm
    | some m =>
      rw [FolderEntry.index_eq_ok hname hsplits hnumber]
      have hhas : e.HasNumber m.toNat := ⟨stem, extension, m, hsplits, hnumber, rfl⟩
      rcases ih hfiles with ⟨is, his, hnumbers⟩ | ⟨e', he', hno, hfault⟩
      · exact .inl ⟨(m, e.path folder) :: is, by rw [his]; rfl, .cons ⟨rfl, hhas⟩ hnumbers⟩
      · exact .inr ⟨e', List.mem_cons_of_mem _ he', hno, by rw [hfault]; rfl⟩

theorem inOrder_eq_error {n : UInt64} {file : String} {rest : List (UInt64 × String)}
    {fault : UploadFault} (h : indexed ps = .ok is)
    (hsorted : is.mergeSort indexLE = (n, file) :: rest)
    (hgap : gap? n ((n, file) :: rest) = some fault) : inOrder ps = .error fault := by
  simp only [inOrder, h, bind, Except.bind, hsorted, hgap]
  rfl

/-- Files with their numbers are in order unless their numbers leave the line somewhere. -/
theorem inOrder_of_indexed (h : indexed ps = .ok is) :
    (∃ first, numbersOf (is.mergeSort indexLE) = List.range' first is.length ∧
      inOrder ps = .ok ((is.mergeSort indexLE).map Prod.snd)) ∨
    ∃ first p x, (is.mergeSort indexLE)[p]? = some x ∧
      LeavesAt (numbersOf (is.mergeSort indexLE)) first p ∧
      inOrder ps = .error (.gap (UInt64.ofNat (first + p)) x.2) := by
  have hle := pairwise_mergeSort is
  have hok : (∃ first, gap? first (is.mergeSort indexLE) = none) →
      inOrder ps = .ok ((is.mergeSort indexLE).map Prod.snd) :=
    fun hgap => inOrder_eq_ok_iff.2 ⟨is, h, hgap, rfl⟩
  have hlength : (is.mergeSort indexLE).length = is.length := List.length_mergeSort is
  rw [← hlength]
  cases hsorted : is.mergeSort indexLE with
  | nil => exact .inl ⟨0, rfl, hsorted ▸ hok ⟨0, hsorted ▸ rfl⟩⟩
  | cons x rest =>
    obtain ⟨n, file⟩ := x
    rw [hsorted] at hle hok
    have hN : ∀ x ∈ (n, file) :: rest, n.toNat ≤ x.1.toNat + 1 := by
      refine List.forall_mem_cons.2 ⟨Nat.le_succ _, fun x hx => ?_⟩
      have hle : n.toNat ≤ x.1.toNat :=
        UInt64.le_iff_toNat_le.1 ((List.pairwise_cons.1 hle).1 x hx)
      omega
    have hgap := gap?_ofNat hle hN
    rw [UInt64.ofNat_toNat] at hgap
    rcases hgap with ⟨hnone, hnumbers⟩ | ⟨p, x, hx, hbefore, hne, hgap⟩
    · exact .inl ⟨n.toNat, hnumbers, hok ⟨n, hnone⟩⟩
    · have hnumber : (numbersOf ((n, file) :: rest))[p]? = some x.1.toNat := by
        rw [numbersOf, List.getElem?_map, hx]
        rfl
      have hleaves : LeavesAt (numbersOf ((n, file) :: rest)) n.toNat p :=
        { head := rfl
          before := hbefore
          lt := (List.getElem?_eq_some_iff.1 hnumber).1
          ne := by
            rw [hnumber]
            exact fun h => hne (Option.some.inj h) }
      exact .inr ⟨n.toNat, p, x, hx, hleaves, inOrder_eq_error h hsorted hgap⟩

/-- Files in the order of their numbers. -/
theorem exists_ascending (hperm : files.Perm (filesOf .manifest entries))
    (his : List.Forall₂ (Numbers folder) files is) :
    ∃ sorted, Ascending entries sorted (numbersOf (is.mergeSort indexLE)) ∧
      List.Forall₂ (Numbers folder) sorted (is.mergeSort indexLE) := by
  obtain ⟨sorted, hsorted, hfiles⟩ :=
    List.perm_comp_forall₂ (List.mergeSort_perm is indexLE) his.flip
  have hnumbers : List.Forall₂ (Numbers folder) sorted (is.mergeSort indexLE) := hsorted.flip
  refine ⟨sorted, ⟨hfiles.trans hperm, ?_, ?_⟩, hnumbers⟩
  · rw [numbersOf, List.forall₂_map_right_iff]
    exact hnumbers.imp fun e x h => h.hasNumber
  · rw [numbersOf, List.pairwise_map]
    exact (pairwise_mergeSort is).imp fun h => UInt64.le_iff_toNat_le.1 h

/-- What the names in a folder come to. -/
inductive Result (folder : String) (entries : List FolderEntry) : Except UploadFault Assets → Prop
  /-- The numbers of the manifests go on by one. -/
  | gathered {first : Nat} {files : List FolderEntry}
      (h : Ascending entries files (List.range' first files.length)) :
      Result folder entries (.ok ⟨(filesOf .image entries).map (path folder),
        (filesOf .animation entries).map (path folder), files.map (path folder)⟩)
  /-- The name of a manifest is no number. -/
  | unnumbered {e : FolderEntry} (hfile : e ∈ filesOf .manifest entries)
      (hno : ∀ n, ¬e.HasNumber n) : Result folder entries (.error (.invalidFileName e.name))
  /-- The numbers of the manifests leave the line. -/
  | gap {files : List FolderEntry} {numbers : List Nat} {first p : Nat} {e : FolderEntry}
      (h : Ascending entries files numbers) (hleaves : LeavesAt numbers first p)
      (hfile : files[p]? = some e) :
      Result folder entries (.error (.gap (UInt64.ofNat (first + p)) (e.path folder)))

theorem ofEntries_result (folder : String) (hlistable : ∀ e ∈ entries, e.IsListable) :
    Result folder entries (ofEntries folder entries) := by
  have hfiles : ∀ e ∈ filesOf .manifest entries, e.IsListable ∧ e.IsFileOf .manifest :=
    fun e he => ⟨hlistable e (mem_filesOf_iff.1 he).1, (mem_filesOf_iff.1 he).2⟩
  simp only [ofEntries, ofKind_paths hlistable]
  rcases indexed_files hfiles with ⟨is, his, hnumbers⟩ | ⟨e, he, hno, hfault⟩
  · obtain ⟨sorted, hascending, hsorted⟩ := exists_ascending (.refl _) hnumbers
    have hpaths : (is.mergeSort indexLE).map Prod.snd = sorted.map (path folder) := by
      rw [← List.forall₂_eq_eq_eq, List.forall₂_map_left_iff, List.forall₂_map_right_iff]
      exact List.Forall₂.flip (hsorted.imp fun e x h => h.path)
    have hlength : is.length = sorted.length := by
      rw [hsorted.length_eq, List.length_mergeSort]
    rcases inOrder_of_indexed his with ⟨first, hrange, hinOrder⟩ | ⟨first, p, x, hx, hleaves, hinOrder⟩
    · rw [hinOrder, hpaths]
      rw [hrange, hlength] at hascending
      exact .gathered hascending
    · rw [hinOrder]
      obtain ⟨hp, hx⟩ := List.getElem?_eq_some_iff.1 hx
      have hp' : p < sorted.length := hsorted.length_eq ▸ hp
      have hfile : Numbers folder sorted[p] x := hx ▸ hsorted.get hp' hp
      rw [hfile.path]
      exact .gap hascending hleaves (List.getElem?_eq_getElem hp')
  · have hinOrder : inOrder ((filesOf .manifest entries).map (path folder)) =
        .error (.invalidFileName e.name) := by
      rw [inOrder, hfault]
      rfl
    rw [hinOrder]
    exact .unnumbered he hno

/-! ## The files of a folder -/

theorem Ascending.exists_number (h : Ascending entries files numbers) {e : FolderEntry}
    (he : e ∈ filesOf .manifest entries) : ∃ n, e.HasNumber n := by
  obtain ⟨p, hp, rfl⟩ := List.mem_iff_getElem.1 (h.perm.mem_iff.2 he)
  exact ⟨_, h.hasNumbers.get hp (h.hasNumbers.length_eq ▸ hp)⟩

theorem Ascending.of_perm (h : Ascending entries files numbers) (hperm : entries.Perm entries') :
    Ascending entries' files numbers where
  perm := h.perm.trans (hperm.filter _)
  hasNumbers := h.hasNumbers
  le := h.le

/-- What is gathered from a folder: every visible file once, or not at all if it is skipped. -/
structure Gathered (folder : String) (entries : List FolderEntry) (assets : Assets) : Prop where
  images : assets.images = (filesOf .image entries).map (path folder)
  animations : assets.animations = (filesOf .animation entries).map (path folder)
  manifests : ∃ first files, Ascending entries files (List.range' first files.length) ∧
    assets.manifests = files.map (path folder)
  once : (assets.images ++ assets.animations ++ assets.manifests ++
    (others entries).map (path folder)).Perm ((entries.filter fun e => e.IsVisible).map (path folder))

/-- What reading a folder ends with, by the names in it. -/
structure Outcome (folder : String) (entries : List FolderEntry) (o : Except Failure Assets) :
    Prop where
  success : (∃ assets, o = .ok assets) ↔
    ∃ first files, Ascending entries files (List.range' first files.length)
  gathered : ∀ assets, o = .ok assets → Gathered folder entries assets
  unnumbered : (∃ e ∈ filesOf .manifest entries, ∀ n, ¬e.HasNumber n) →
    ∃ e ∈ filesOf .manifest entries, (∀ n, ¬e.HasNumber n) ∧
      o = .error (.upload (.invalidFileName e.name))
  gap : (∀ e ∈ filesOf .manifest entries, ∃ n, e.HasNumber n) →
    (¬∃ first files, Ascending entries files (List.range' first files.length)) →
    ∃ files numbers first p e, Ascending entries files numbers ∧ LeavesAt numbers first p ∧
      files[p]? = some e ∧ o = .error (.upload (.gap (UInt64.ofNat (first + p)) (e.path folder)))

/-- Endings that differ in the order of images and animations, and in the files of errors. -/
inductive Agree : Except Failure Assets → Except Failure Assets → Prop
  | gathered {assets assets' : Assets} (h : assets.Reordered assets') : Agree (.ok assets) (.ok assets')
  | unnumbered (name name' : String) : Agree (.error (.upload (.invalidFileName name)))
      (.error (.upload (.invalidFileName name')))
  | gap (expected : UInt64) (file file' : String) : Agree (.error (.upload (.gap expected file)))
      (.error (.upload (.gap expected file')))

theorem Ascending.gathered (folder : String)
    (h : Ascending entries files (List.range' first files.length)) :
    Gathered folder entries ⟨(filesOf .image entries).map (path folder),
      (filesOf .animation entries).map (path folder), files.map (path folder)⟩ where
  images := rfl
  animations := rfl
  manifests := ⟨first, files, h, rfl⟩
  once := by
    refine List.Perm.trans ?_ ((perm_visible entries).map (path folder))
    simp only [List.map_append]
    exact ((h.perm.map _).append_left _).append_right _

theorem Result.outcome {r : Except UploadFault Assets} (h : Result folder entries r) :
    Outcome folder entries (r.mapError .upload) := by
  cases h with
  | @gathered first files h =>
    exact
      { success := iff_of_true ⟨_, rfl⟩ ⟨first, files, h⟩
        gathered := by
          rintro _ ⟨⟩
          exact h.gathered folder
        unnumbered := by
          rintro ⟨e, he, hno⟩
          obtain ⟨n, hn⟩ := h.exists_number he
          exact absurd hn (hno n)
        gap := fun _ hnone => absurd ⟨first, files, h⟩ hnone }
  | unnumbered hfile hno =>
    exact
      { success := by
          refine iff_of_false ?_ ?_
          · rintro ⟨_, ⟨⟩⟩
          · rintro ⟨first, files, h⟩
            obtain ⟨n, hn⟩ := h.exists_number hfile
            exact hno n hn
        gathered := by
          rintro _ ⟨⟩
        unnumbered := fun _ => ⟨_, hfile, hno, rfl⟩
        gap := by
          intro hall
          obtain ⟨n, hn⟩ := hall _ hfile
          exact absurd hn (hno n) }
  | @gap files numbers first p e h hleaves hfile =>
    exact
      { success := by
          refine iff_of_false ?_ ?_
          · rintro ⟨_, ⟨⟩⟩
          · rintro ⟨first', files', h'⟩
            exact not_leavesAt_range' (h'.numbers_eq h ▸ hleaves)
        gathered := by
          rintro _ ⟨⟩
        unnumbered := by
          rintro ⟨e, he, hno⟩
          obtain ⟨n, hn⟩ := h.exists_number he
          exact absurd hn (hno n)
        gap := fun _ _ => ⟨files, numbers, first, p, e, h, hleaves, hfile, rfl⟩ }

/-- What a folder gives does not depend on the order in which it is listed. -/
theorem agree_of_perm (folder : String) (hlistable : ∀ e ∈ entries, e.IsListable)
    (hperm : entries.Perm entries') :
    Agree ((ofEntries folder entries).mapError .upload)
      ((ofEntries folder entries').mapError .upload) := by
  have hlistable' : ∀ e ∈ entries', e.IsListable := fun e he => hlistable e (hperm.mem_iff.2 he)
  have hmanifests : ∀ e, e ∈ filesOf .manifest entries ↔ e ∈ filesOf .manifest entries' :=
    fun e => (hperm.filter _).mem_iff
  have h := ofEntries_result folder hlistable
  have h' := ofEntries_result folder hlistable'
  cases hr : ofEntries folder entries with
  | ok assets =>
    obtain ⟨assets', hr', hreordered⟩ := ofEntries_perm hr hperm
    rw [hr']
    exact .gathered hreordered
  | error fault =>
    cases hr' : ofEntries folder entries' with
    | ok assets' =>
      obtain ⟨assets, hr'', -⟩ := ofEntries_perm hr' hperm.symm
      cases hr.symm.trans hr''
    | error fault' =>
      rw [hr] at h
      rw [hr'] at h'
      cases h with
      | unnumbered hfile hno =>
        cases h' with
        | unnumbered hfile' hno' => exact .unnumbered _ _
        | gap hascending _ _ =>
          obtain ⟨n, hn⟩ := hascending.exists_number ((hmanifests _).1 hfile)
          exact absurd hn (hno n)
      | gap hascending hleaves hfile =>
        cases h' with
        | unnumbered hfile' hno' =>
          obtain ⟨n, hn⟩ := hascending.exists_number ((hmanifests _).2 hfile')
          exact absurd hn (hno' n)
        | gap hascending' hleaves' hfile' =>
          obtain rfl := (hascending.of_perm hperm).numbers_eq hascending'
          obtain ⟨rfl, rfl⟩ := hleaves.unique hleaves'
          exact .gap _ _ _

theorem runs_warnAll_iff {ws : List String} {es : List Event} {o : Except Failure Unit} :
    (warnAll ws).Runs es o ↔ es = ws.map (fun w => ⟨.warn w, ()⟩) ∧ o = .ok () := by
  induction ws generalizing es with
  | nil => exact Script.runs_done_iff
  | cons w ws ih =>
    have hcons : warnAll (w :: ws) = Script.ask (.warn w) fun _ => warnAll ws := rfl
    rw [hcons, Script.runs_ask_iff]
    constructor
    · rintro ⟨_, es', rfl, h⟩
      obtain ⟨rfl, rfl⟩ := ih.1 h
      exact ⟨rfl, rfl⟩
    · rintro ⟨rfl, rfl⟩
      exact ⟨(), _, rfl, ih.2 ⟨rfl, rfl⟩⟩

theorem runs_ofFolder_iff (hlistable : ∀ e ∈ entries, e.IsListable) {es : List Event}
    {o : Except Failure Assets} :
    (ofFolder folder).Runs (⟨.list folder, some entries⟩ :: es) o ↔
      es = warned folder entries ∧ o = (ofEntries folder entries).mapError .upload := by
  have hwarned : (warnings folder entries).map (fun w => (⟨.warn w, ()⟩ : Event)) =
      warned folder entries := by
    rw [warned, warnings_eq hlistable, List.map_map]
    rfl
  have hlisted : (ofFolder folder).Runs (⟨.list folder, some entries⟩ :: es) o ↔
      (warnAll (warnings folder entries) >>= fun _ =>
        Script.ofExcept .upload (ofEntries folder entries)).Runs es o := by
    constructor
    · intro h
      cases h with
      | ask h => exact h
    · exact fun h => .ask h
  rw [hlisted, Script.runs_bind_iff]
  constructor
  · rintro (⟨e, -, h⟩ | ⟨_, es₁, es₂, rfl, h₁, h₂⟩)
    · cases (runs_warnAll_iff.1 h).2
    · obtain ⟨rfl, -⟩ := runs_warnAll_iff.1 h₁
      obtain ⟨rfl, rfl⟩ := Script.runs_ofExcept_iff.1 h₂
      exact ⟨by rw [List.append_nil, hwarned], rfl⟩
  · rintro ⟨rfl, rfl⟩
    exact .inr ⟨(), _, [], (List.append_nil _).symm, runs_warnAll_iff.2 ⟨hwarned.symm, rfl⟩,
      Script.runs_ofExcept_iff.2 ⟨rfl, rfl⟩⟩

/-- **What a folder gives** follows from the names in it. There is one way to read it, which ends as
these names say, and in every other order of the folder it ends in the same way but for the order of
images and animations and for the files that errors name. -/
theorem ofFolder_sorts (folder : String) (entries : List FolderEntry)
    (hlistable : ∀ e ∈ entries, e.IsListable) :
    ∃ o, (∀ es o', (ofFolder folder).Runs (⟨.list folder, some entries⟩ :: es) o' ↔
        es = warned folder entries ∧ o' = o) ∧
      Outcome folder entries o ∧
      ∀ entries', entries.Perm entries' → ∀ es o',
        (ofFolder folder).Runs (⟨.list folder, some entries'⟩ :: es) o' → Agree o o' := by
  refine ⟨_, fun es o' => runs_ofFolder_iff hlistable,
    (ofEntries_result folder hlistable).outcome, fun entries' hperm es o' h => ?_⟩
  have hlistable' : ∀ e ∈ entries', e.IsListable := fun e he => hlistable e (hperm.mem_iff.2 he)
  obtain ⟨-, rfl⟩ := (runs_ofFolder_iff hlistable').1 h
  exact agree_of_perm folder hlistable hperm

/-- The last two numbers of 64 bits, among names that do not count and one that is skipped. -/
def Sample.mixed : List FolderEntry :=
  [⟨"18446744073709551615.json", true⟩, ⟨"nested.json", false⟩, ⟨"7.PNG", true⟩,
    ⟨".7.json", true⟩, ⟨"notes.txt", true⟩, ⟨"+018446744073709551614.Json", true⟩]

theorem ofFolder_sorts_mixed : (∀ e ∈ Sample.mixed, e.IsListable) ∧
    ∃ assets, Gathered "images" Sample.mixed assets ∧ (ofFolder "images").Runs
      (⟨.list "images", some Sample.mixed⟩ :: warned "images" Sample.mixed) (.ok assets) := by
  have hlistable : ∀ e ∈ Sample.mixed, e.IsListable := by
    have hnames : ∀ e ∈ Sample.mixed, e.name ≠ "" ∧ '/' ∉ e.name.toList := by decide
    exact fun e he => ⟨(hnames e he).1, (hnames e he).2⟩
  obtain ⟨o, hruns, houtcome, -⟩ := ofFolder_sorts "images" Sample.mixed hlistable
  have hascending : Ascending Sample.mixed
      [⟨"+018446744073709551614.Json", true⟩, ⟨"18446744073709551615.json", true⟩]
      (List.range' 18446744073709551614 2) :=
    { perm := by decide
      hasNumbers := .cons ⟨"+018446744073709551614", "Json", 18446744073709551614,
          ⟨rfl, by decide, by decide⟩, by decide, rfl⟩ <|
        .cons ⟨"18446744073709551615", "json", 18446744073709551615,
          ⟨rfl, by decide, by decide⟩, by decide, rfl⟩ .nil
      le := by decide }
  obtain ⟨assets, rfl⟩ := houtcome.success.2 ⟨_, _, hascending⟩
  exact ⟨hlistable, assets, houtcome.gathered assets rfl, (hruns _ _).2 ⟨rfl, rfl⟩⟩

end CandyDrop.Assets
