import CandyDrop.Assets.Basic
import Mathlib.Data.List.TakeWhile

/-!
# The names of files

What a folder has in it goes by its name: a stem and, behind the last dot, an extension
(`FolderEntry.Splits`). The extension decides of what kind a file is (`FolderEntry.IsFileOf`), and the
stem may be a number (`FolderEntry.HasNumber`). The library goes by the paths of files, which is the
same for names that a folder can have (`FolderEntry.IsListable`): the last part of a path in a folder
is the name (`FilePath.fileName?_join`), and it is cut where it is split
(`FilePath.cutExtension_eq_iff`).
-/

namespace CandyDrop

/-! ## Paths and their last parts -/

namespace FilePath

variable {cs ds name stem extension : List Char}

theorem split_of_not_mem (h : '/' ∉ cs) : split cs = [cs] := by
  induction cs with
  | nil => rfl
  | cons c cs ih =>
    rw [List.mem_cons, not_or] at h
    rw [split, if_neg (Ne.symm h.1), ih h.2]

theorem split_append_cons (cs ds : List Char) :
    split (cs ++ '/' :: ds) = split cs ++ split ds := by
  induction cs with
  | nil => rfl
  | cons c cs ih =>
    rw [List.cons_append, split, ih]
    by_cases hc : c = '/'
    · rw [if_pos hc, split, if_pos hc, List.cons_append]
    · rw [if_neg hc, split, if_neg hc]
      cases hcs : split cs with
      | nil =>
        -- A text always has a part.
        unfold split at hcs
        split at hcs
        · cases hcs
        · split at hcs
          · cases hcs
          · split at hcs <;> cases hcs
      | cons p ps => rfl

/-- A path in a folder ends with the name that it was made of. -/
theorem exists_split_join (folder : String) {name : String} (h : '/' ∉ name.toList) :
    ∃ before, split (join folder name).toList = before ++ [name.toList] := by
  have hrelative : isAbsolute name = false := by
    unfold isAbsolute
    cases hname : name.toList with
    | nil => rfl
    | cons c cs =>
      have hc : c ≠ '/' := fun hc => h (by simp [hname, hc])
      simpa using hc
  rw [join, hrelative, if_neg Bool.false_ne_true]
  split
  · next hend =>
    rw [String.toList_append]
    rcases hend with hempty | hslash
    · have hnil : folder.toList = [] := by simpa using hempty
      exact ⟨[], by rw [hnil, List.nil_append, split_of_not_mem h, List.nil_append]⟩
    · obtain ⟨front, hfront⟩ := List.getLast?_eq_some_iff.1 hslash
      refine ⟨split front, ?_⟩
      rw [hfront, List.append_assoc, List.singleton_append, split_append_cons, split_of_not_mem h]
  · refine ⟨split folder.toList, ?_⟩
    rw [String.toList_append, String.toList_append, List.append_assoc]
    exact (split_append_cons folder.toList name.toList).trans (by rw [split_of_not_mem h])

theorem fileName?_join (folder : String) {name : String} (hslash : '/' ∉ name.toList)
    (hdot : name.toList.head? ≠ some '.') (hne : name ≠ "") :
    fileName? (join folder name) = some name := by
  obtain ⟨before, hsplit⟩ := exists_split_join folder hslash
  have hcounts : counts name.toList = true := by
    have hdots : name.toList ≠ ['.'] := fun h => hdot (by rw [h]; rfl)
    simp [counts, hne, hdots]
  have hlast : (parts (join folder name)).getLast? = some name := by
    rw [parts, hsplit, List.filter_append, List.map_append]
    simp [hcounts]
  rw [fileName?, hlast]
  split
  · next heq =>
    obtain rfl := Option.some.inj heq
    exact absurd rfl hdot
  · rfl

/-! ## Stems and extensions -/

theorem cutExtension_of_not_mem (h : '.' ∉ name) : cutExtension name = (name, none) := by
  have hall : name.reverse.takeWhile (· != '.') = name.reverse := by
    refine List.takeWhile_eq_self_iff.2 fun c hc => ?_
    have hne : c ≠ '.' := fun heq => h (List.mem_reverse.1 (heq ▸ hc))
    simpa using hne
  rw [cutExtension, hall, List.length_reverse]
  exact if_pos (.inl rfl)

theorem cutExtension_append_cons (h : '.' ∉ extension) :
    cutExtension (stem ++ '.' :: extension) =
      if stem = [] then (stem ++ '.' :: extension, none) else (stem, some extension) := by
  have hreverse : (stem ++ '.' :: extension).reverse =
      extension.reverse ++ '.' :: stem.reverse := by simp
  have hafter : (stem ++ '.' :: extension).reverse.takeWhile (· != '.') = extension.reverse := by
    rw [hreverse, List.takeWhile_append_of_pos, List.takeWhile_cons_of_neg (by simp),
      List.append_nil]
    intro c hc
    have hne : c ≠ '.' := fun heq => h (List.mem_reverse.1 (heq ▸ hc))
    simpa using hne
  have hbefore : ((stem ++ '.' :: extension).reverse.drop (extension.length + 1)).reverse = stem := by
    rw [hreverse, ← List.length_reverse, ← List.drop_drop, List.drop_left]
    simp
  have hlength : extension.length ≠ (stem ++ '.' :: extension).length := by
    rw [List.length_append, List.length_cons]
    omega
  simp only [cutExtension, hafter, hbefore, List.length_reverse, List.reverse_reverse, hlength,
    false_or]

/-- **A name is cut** at its last dot, unless it starts there. -/
theorem cutExtension_eq_iff : cutExtension name = (stem, some extension) ↔
    name = stem ++ '.' :: extension ∧ stem ≠ [] ∧ '.' ∉ extension := by
  constructor
  · intro h
    by_cases hdot : '.' ∈ name
    · obtain ⟨after, before, heq, hafter⟩ := List.eq_append_cons_of_mem (List.mem_reverse.2 hdot)
      have hname : name = before.reverse ++ '.' :: after.reverse := by
        rw [← List.reverse_reverse name, heq]
        simp
      have hnot : '.' ∉ after.reverse := fun hc => hafter (List.mem_reverse.1 hc)
      rw [hname, cutExtension_append_cons hnot] at h
      split at h
      · cases h
      · next hne =>
        cases h
        exact ⟨hname, hne, hnot⟩
    · rw [cutExtension_of_not_mem hdot] at h
      cases h
  · rintro ⟨rfl, hne, hnot⟩
    rw [cutExtension_append_cons hnot, if_neg hne]

end FilePath

/-! ## Names in a folder -/

/-- The extensions of a kind of files, in small letters. -/
def AssetKind.extensions : AssetKind → List String
  | image => imageExtensions
  | animation => animationExtensions
  | manifest => [manifestExtension]

namespace FolderEntry

/-- A name that a folder can have: it is not empty and has no slash. -/
structure IsListable (e : FolderEntry) : Prop where
  name_ne : e.name ≠ ""
  noSlash : '/' ∉ e.name.toList

/-- A regular file whose name does not start with a dot. -/
structure IsVisible (e : FolderEntry) : Prop where
  isFile : e.isFile = true
  notHidden : e.name.toList.head? ≠ some '.'

/-- The name is made of a stem and, behind its last dot, an extension. -/
structure Splits (e : FolderEntry) (stem extension : String) : Prop where
  name_eq : e.name = stem ++ "." ++ extension
  stem_ne : stem ≠ ""
  noDot : '.' ∉ extension.toList

/-- The name has an extension of this kind, in any case. -/
def HasExtensionOf (kind : AssetKind) (e : FolderEntry) : Prop :=
  ∃ stem extension, e.Splits stem extension ∧
    String.ofList (extension.toList.map Char.toLower) ∈ kind.extensions

/-- A visible file of this kind. -/
structure IsFileOf (kind : AssetKind) (e : FolderEntry) : Prop where
  isVisible : e.IsVisible
  hasExtension : e.HasExtensionOf kind

/-- A visible file of no kind. -/
structure IsOther (e : FolderEntry) : Prop where
  isVisible : e.IsVisible
  hasNoExtension : ∀ kind, ¬e.HasExtensionOf kind

/-- The stem of the name is the decimal text of a number of 64 bits. -/
def HasNumber (e : FolderEntry) (n : Nat) : Prop :=
  ∃ stem extension m, e.Splits stem extension ∧ Text.uint64? stem = some m ∧ m.toNat = n

variable {e : FolderEntry} {p stem stem' extension extension' : String} {kind : AssetKind}
  {m n : Nat}

theorem splits_iff : e.Splits stem extension ↔
    FilePath.cutExtension e.name.toList = (stem.toList, some extension.toList) := by
  rw [FilePath.cutExtension_eq_iff]
  constructor
  · rintro ⟨hname, hstem, hdot⟩
    exact ⟨by rw [hname]; simp, by simpa using hstem, hdot⟩
  · rintro ⟨hname, hstem, hdot⟩
    exact ⟨String.toList_inj.1 (by rw [hname]; simp), by simpa using hstem, hdot⟩

/-- There is one way to split a name. -/
theorem Splits.unique (h : e.Splits stem extension) (h' : e.Splits stem' extension') :
    stem' = stem ∧ extension' = extension := by
  have heq := (splits_iff.1 h').symm.trans (splits_iff.1 h)
  rw [Prod.mk.injEq, Option.some.injEq] at heq
  exact ⟨String.toList_inj.1 heq.1, String.toList_inj.1 heq.2⟩

theorem HasNumber.unique (h : e.HasNumber m) (h' : e.HasNumber n) : m = n := by
  obtain ⟨stem, extension, a, hsplits, ha, rfl⟩ := h
  obtain ⟨stem', extension', b, hsplits', hb, rfl⟩ := h'
  obtain ⟨rfl, -⟩ := hsplits.unique hsplits'
  rw [Option.some.inj (ha.symm.trans hb)]

/-! ## Kinds of files -/

theorem counts_iff : Assets.counts e = true ↔ e.IsVisible := by
  rw [Assets.counts, Bool.and_eq_true, bne_iff_ne]
  exact ⟨fun h => ⟨h.1, h.2⟩, fun h => ⟨h.1, h.2⟩⟩

instance : Decidable e.IsVisible := decidable_of_iff _ counts_iff

theorem ofExtension?_eq_some_iff {s : String} :
    (if AssetKind.imageExtensions.contains s then some AssetKind.image
      else if AssetKind.animationExtensions.contains s then some .animation
      else if s = AssetKind.manifestExtension then some .manifest
      else none) = some kind ↔ s ∈ kind.extensions := by
  have hanimation : ∀ s ∈ AssetKind.animationExtensions, s ∉ AssetKind.imageExtensions := by
    decide
  have hmanifest : AssetKind.manifestExtension ∉ AssetKind.imageExtensions ∧
      AssetKind.manifestExtension ∉ AssetKind.animationExtensions := by decide
  simp only [List.contains_iff_mem]
  split
  · next himage =>
    cases kind with
    | image => simpa [AssetKind.extensions] using himage
    | animation =>
      simp only [AssetKind.extensions]
      exact ⟨fun h => (by cases h), fun h => absurd himage (hanimation s h)⟩
    | manifest =>
      simp only [AssetKind.extensions, List.mem_singleton]
      exact ⟨fun h => (by cases h), fun h => absurd (h ▸ himage) hmanifest.1⟩
  · next himage =>
    split
    · next hanim =>
      cases kind with
      | image => simpa [AssetKind.extensions] using himage
      | animation => simpa [AssetKind.extensions] using hanim
      | manifest =>
        simp only [AssetKind.extensions, List.mem_singleton]
        exact ⟨fun h => (by cases h), fun h => absurd (h ▸ hanim) hmanifest.2⟩
    · next hanim => cases kind <;> simp [AssetKind.extensions, himage, hanim]

theorem HasExtensionOf.unique {kind' : AssetKind} (h : e.HasExtensionOf kind)
    (h' : e.HasExtensionOf kind') : kind = kind' := by
  obtain ⟨stem, extension, hsplits, hmem⟩ := h
  obtain ⟨stem', extension', hsplits', hmem'⟩ := h'
  obtain ⟨rfl, rfl⟩ := hsplits.unique hsplits'
  exact Option.some.inj
    ((ofExtension?_eq_some_iff.2 hmem).symm.trans (ofExtension?_eq_some_iff.2 hmem'))

theorem hasExtensionOf_iff : e.HasExtensionOf kind ↔
    (FilePath.cutExtension e.name.toList).2.any (fun extension =>
      String.ofList (extension.map Char.toLower) ∈ kind.extensions) = true := by
  rw [Option.any_eq_true]
  constructor
  · rintro ⟨stem, extension, hsplits, hmem⟩
    exact ⟨extension.toList, by rw [splits_iff.1 hsplits], decide_eq_true hmem⟩
  · rintro ⟨extension, hcut, hmem⟩
    refine ⟨String.ofList (FilePath.cutExtension e.name.toList).1, String.ofList extension,
      splits_iff.2 ?_, by simpa using hmem⟩
    rw [String.toList_ofList, String.toList_ofList, ← hcut]

instance : Decidable (e.HasExtensionOf kind) := decidable_of_iff _ hasExtensionOf_iff.symm

theorem isFileOf_iff : e.IsFileOf kind ↔ e.IsVisible ∧ e.HasExtensionOf kind :=
  ⟨fun h => ⟨h.isVisible, h.hasExtension⟩, fun h => ⟨h.1, h.2⟩⟩

instance : Decidable (e.IsFileOf kind) := decidable_of_iff _ isFileOf_iff.symm

theorem isOther_iff : e.IsOther ↔ e.IsVisible ∧ ¬e.HasExtensionOf .image ∧
    ¬e.HasExtensionOf .animation ∧ ¬e.HasExtensionOf .manifest := by
  constructor
  · intro h
    exact ⟨h.isVisible, h.hasNoExtension _, h.hasNoExtension _, h.hasNoExtension _⟩
  · rintro ⟨hvisible, himage, hanimation, hmanifest⟩
    exact ⟨hvisible, fun kind => by cases kind <;> assumption⟩

instance : Decidable e.IsOther := decidable_of_iff _ isOther_iff.symm

/-! ## Paths of entries -/

/-- The path of what a folder has under this name. -/
def path (folder : String) (e : FolderEntry) : String := FilePath.join folder e.name

theorem fileName?_path (folder : String) (hlistable : e.IsListable) (hvisible : e.IsVisible) :
    FilePath.fileName? (e.path folder) = some e.name :=
  FilePath.fileName?_join folder hlistable.noSlash hvisible.notHidden hlistable.name_ne

/-- **The kind of a file** is that of its extension. -/
theorem ofPath?_eq_some_iff (h : FilePath.fileName? p = some e.name) :
    AssetKind.ofPath? p = some kind ↔ e.HasExtensionOf kind := by
  have hextension : FilePath.extension? p =
      (FilePath.cutExtension e.name.toList).2.map String.ofList := by
    rw [FilePath.extension?, h]
    rfl
  rw [AssetKind.ofPath?, hextension]
  constructor
  · intro hkind
    rcases hcut : FilePath.cutExtension e.name.toList with ⟨stem, _ | extension⟩
    · rw [hcut] at hkind
      cases hkind
    · simp only [hcut, Option.map_some, Option.bind_eq_bind, Option.bind_some] at hkind
      refine ⟨String.ofList stem, String.ofList extension, splits_iff.2 (by simpa using hcut), ?_⟩
      exact ofExtension?_eq_some_iff.1 hkind
  · rintro ⟨stem, extension, hsplits, hmem⟩
    simp only [splits_iff.1 hsplits, Option.map_some, Option.bind_eq_bind, Option.bind_some,
      String.ofList_toList]
    exact ofExtension?_eq_some_iff.2 hmem

theorem stem?_eq (h : FilePath.fileName? p = some e.name) (hsplits : e.Splits stem extension) :
    FilePath.stem? p = some stem := by
  rw [FilePath.stem?, h, Option.map_some, splits_iff.1 hsplits, String.ofList_toList]

/-- **The number of a file** is that of its stem. -/
theorem index_eq_ok {m : UInt64} (h : FilePath.fileName? p = some e.name)
    (hsplits : e.Splits stem extension) (hnumber : Text.uint64? stem = some m) :
    Assets.index p = .ok m := by
  rw [Assets.index, stem?_eq h hsplits, Option.bind_some, hnumber]

theorem index_eq_error (h : FilePath.fileName? p = some e.name)
    (hsplits : e.Splits stem extension) (hnone : Text.uint64? stem = none) :
    Assets.index p = .error (.invalidFileName e.name) := by
  rw [Assets.index, stem?_eq h hsplits, Option.bind_some, hnone, h, Option.getD_some]

end FolderEntry

end CandyDrop
