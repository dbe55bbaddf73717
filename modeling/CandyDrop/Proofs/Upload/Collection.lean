import CandyDrop.Proofs.Assets.Order
import CandyDrop.Proofs.Upload.Survey

/-!
# Collections

What an upload reads of a collection is the folder of its files, in whatever order this is listed, and
the content of its manifests (`Collection`, `Collection.SeenIn`). The lines that an upload finds are
those of the collection (`Collection.hasLines_of_found`), and these are determined
(`Collection.HasLines.unique`).
-/

namespace CandyDrop.Upload

/-- The files of a collection: the entries of its folder and what its manifests hold. -/
structure Collection where
  entries : List FolderEntry
  file : String → Bytes

namespace Collection

/-- What is seen of the collection along a transcript is what it is, its folder in any order; it
need not be seen at all. -/
structure SeenIn (k : Collection) (directory : String) (es : List Event) : Prop where
  entries : ∀ entries, ⟨.list directory, some entries⟩ ∈ es → entries.Perm k.entries
  file : ∀ assets, Assets.ofEntries directory k.entries = .ok assets →
    ∀ path ∈ assets.manifests, ∀ bs, ⟨.read path, Content.bytes bs⟩ ∈ es → bs = k.file path

/-- Whether what is seen of the collection with an event is what it is. -/
def sees (k : Collection) (directory : String) : Event → Bool
  | ⟨.list _, some entries⟩ => entries.isPerm k.entries
  | ⟨.read path, .bytes bs⟩ =>
    match Assets.ofEntries directory k.entries with
    | .ok assets => !assets.manifests.contains path || bs == k.file path
    | .error _ => true
  | _ => true

theorem sees_read {k : Collection} {directory path : String} {bs : Bytes}
    (h : ∀ assets, Assets.ofEntries directory k.entries = .ok assets → path ∈ assets.manifests →
      bs = k.file path) : k.sees directory ⟨.read path, .bytes bs⟩ = true := by
  simp only [sees]
  split
  · next assets hassets =>
    by_cases hmem : path ∈ assets.manifests
    · simp [h assets hassets hmem]
    · simp [hmem]
  · rfl

theorem seenIn_of_sees {k : Collection} {directory : String} {es : List Event}
    (h : ∀ e ∈ es, k.sees directory e) : k.SeenIn directory es where
  entries := by
    intro entries he
    exact List.isPerm_iff.1 (h _ he)
  file := by
    intro assets hassets path hpath bs he
    have hsees : (match Assets.ofEntries directory k.entries with
      | .ok assets => !assets.manifests.contains path || bs == k.file path
      | .error _ => true) = true := h _ he
    rw [hassets] at hsees
    simpa [hpath] using hsees

/-- The lines that an upload makes of a collection. -/
structure HasLines (k : Collection) (config : Config) (directory : String) (assets : Assets)
    (manifests : List Manifest) (lines : List (String × String)) : Prop where
  ofEntries : Assets.ofEntries directory k.entries = .ok assets
  read : assets.manifests.mapM (fun path => Manifest.ofBytes? (k.file path)) = some manifests
  lines : ∃ base, baseUri config = .ok base ∧
    Lines (Text.trimEndOf '/' base) (assets.manifests.zip manifests) lines

variable {k : Collection} {config : Config} {options : Options} {directory : String}
  {es : List Event} {assets assets' : Assets} {manifests manifests' : List Manifest}
  {lines lines' : List (String × String)}

theorem mapM_of_readAlong {paths : List String} (h : Manifest.ReadAlong es paths manifests)
    (hfile : ∀ path ∈ paths, ∀ bs, ⟨.read path, Content.bytes bs⟩ ∈ es → bs = k.file path) :
    paths.mapM (fun path => Manifest.ofBytes? (k.file path)) = some manifests := by
  induction h with
  | nil => rfl
  | cons hread hmanifest _ ih =>
    have hbs := hfile _ (List.mem_cons_self ..) _ hread
    have hrest := ih fun path hpath => hfile path (List.mem_cons_of_mem _ hpath)
    rw [hbs] at hmanifest
    simp [hmanifest, hrest]

theorem hasLines_of_found (h : Found config options es assets manifests lines)
    (hseen : k.SeenIn options.directory es) :
    ∃ assets', k.HasLines config options.directory assets' manifests lines ∧
      assets'.manifests = assets.manifests := by
  obtain ⟨entries, hlisted, hentries⟩ := h.listed
  obtain ⟨assets', hassets, -, -, hsame⟩ :=
    Assets.ofEntries_perm hentries (hseen.entries entries hlisted)
  refine ⟨assets', ⟨hassets, ?_, ?_⟩, hsame⟩
  · rw [hsame]
    exact mapM_of_readAlong h.read fun path hpath =>
      hseen.file assets' hassets path (hsame ▸ hpath)
  · rw [hsame]
    exact h.lines

theorem lines_unique {base : String} {files : List (String × Manifest)}
    (h : Lines base files lines) (h' : Lines base files lines') : lines = lines' := by
  induction h generalizing lines' with
  | nil =>
    cases h'
    rfl
  | cons hindex _ _ _ ih =>
    cases h' with
    | cons hindex' _ _ rest =>
      rw [hindex] at hindex'
      cases hindex'
      rw [ih rest]

/-- A collection has its lines in one way. -/
theorem HasLines.unique (h : k.HasLines config directory assets manifests lines)
    (h' : k.HasLines config directory assets' manifests' lines') :
    assets = assets' ∧ manifests = manifests' ∧ lines = lines' := by
  have hassets := h.ofEntries
  rw [h'.ofEntries] at hassets
  cases hassets
  have hmanifests := h.read
  rw [h'.read] at hmanifests
  cases hmanifests
  obtain ⟨base, hbase, hlines⟩ := h.lines
  obtain ⟨base', hbase', hlines'⟩ := h'.lines
  rw [hbase] at hbase'
  cases hbase'
  exact ⟨rfl, rfl, lines_unique hlines hlines'⟩

end Collection

end CandyDrop.Upload
