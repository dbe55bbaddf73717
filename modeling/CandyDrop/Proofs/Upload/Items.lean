import CandyDrop.Proofs.Assets.Folder
import CandyDrop.Proofs.Rehearsal.Transcript
import CandyDrop.Proofs.Upload.Merge

/-!
# Every item names its own file

An item has the position of its line for a key, the name that a manifest gives it, and a link with
the number of the file that this manifest was read from. Paths and manifests are two lists from the
same files, and both are gone through from the first one to the last: the manifest at a position was
read from the file at this position (`Manifest.readEach_at`), and the item there is made of the two
(`Upload.items_at`). Since files have different numbers, items have different links.
-/

namespace CandyDrop

/-! ## Slashes at the end -/

/-- A text without the slashes at its end. -/
structure Text.Trimmed (s trimmed : String) : Prop where
  slashes : ∃ k, s.toList = trimmed.toList ++ List.replicate k '/'
  noSlash : trimmed.toList.getLast? ≠ some '/'

theorem Text.trimmed_trimEndOf (s : String) : Trimmed s (trimEndOf '/' s) where
  slashes := by
    have hall : ∀ c ∈ (s.toList.reverse.takeWhile (· == '/')).reverse, c = '/' := fun c hc => by
      simpa using List.mem_takeWhile_imp (List.mem_reverse.1 hc)
    refine ⟨(s.toList.reverse.takeWhile (· == '/')).reverse.length, ?_⟩
    rw [← List.eq_replicate_of_mem hall, trimEndOf, String.toList_ofList, ← List.reverse_append,
      List.takeWhile_append_dropWhile, List.reverse_reverse]
  noSlash := by
    rw [trimEndOf, String.toList_ofList, List.getLast?_reverse]
    intro h
    have hnot := List.head?_dropWhile_not (· == '/') s.toList.reverse
    rw [h] at hnot
    cases hnot

/-! ## Manifests in the order of their files -/

namespace Manifest

variable {es : List Event} {paths : List String} {manifests : List Manifest} {p : Nat}
  {path : String}

/-- The manifest at a position was read from the file at this position. -/
theorem readEach_at (h : (readEach paths).Runs es (.ok manifests)) (hpath : paths[p]? = some path) :
    ∃ bs manifest, es[p]? = some ⟨.read path, Content.bytes bs⟩ ∧ ofBytes? bs = some manifest ∧
      manifests[p]? = some manifest := by
  induction paths generalizing es manifests p with
  | nil => cases hpath
  | cons path' paths ih =>
    obtain ⟨content, manifest, rest, es', rfl, hcontent, hrest, rfl⟩ := runs_readEach_cons_iff.1 h
    cases p with
    | zero =>
      obtain rfl : path' = path := by simpa using hpath
      obtain ⟨bs, rfl, hmanifest⟩ := ofContent_ok hcontent
      exact ⟨bs, manifest, rfl, hmanifest, rfl⟩
    | succ p =>
      obtain ⟨bs, manifest', hes, hmanifest, hmanifests⟩ := ih hrest (by simpa using hpath)
      exact ⟨bs, manifest', by simpa using hes, hmanifest, by simpa using hmanifests⟩

theorem readAll_at (h : (readAll paths).Runs es (.ok manifests)) (hpath : paths[p]? = some path) :
    ∃ bs manifest, es[p]? = some ⟨.read path, Content.bytes bs⟩ ∧ ofBytes? bs = some manifest ∧
      manifests[p]? = some manifest := by
  unfold readAll at h
  split at h
  · cases h
  · exact readEach_at h hpath

end Manifest

/-! ## Items in the order of their files -/

namespace Upload

variable {base : String} {files : List (String × Manifest)} {lines : List (String × String)}
  {items : List (String × CacheItem)} {start p : Nat}

theorem Lines.at {file : String × Manifest} (h : Lines base files lines)
    (hfile : files[p]? = some file) : ∃ index, Assets.index file.1 = .ok index ∧
      lines[p]? = some (file.2.name, base ++ "/" ++ index.toNat.repr) := by
  induction h generalizing p with
  | nil => cases hfile
  | @cons path manifest index _ _ hindex _ _ _ ih =>
    cases p with
    | zero =>
      obtain rfl : (path, manifest) = file := by simpa using hfile
      exact ⟨index, hindex, rfl⟩
    | succ p => exact ih (by simpa using hfile)

theorem Lines.limits (h : Lines base files lines) :
    ∀ l ∈ lines, Bytes.sizeOfText l.1 ≤ 32 ∧ Bytes.sizeOfText l.2 ≤ 200 := by
  induction h with
  | nil => simp
  | cons _ hname hlink _ ih => exact List.forall_mem_cons.2 ⟨⟨hname, hlink⟩, ih⟩

theorem getElem?_numbered :
    (numbered start lines)[p]? =
      lines[p]?.map fun l => ((start + p).repr, ⟨l.1, l.2, false⟩) := by
  induction lines generalizing start p with
  | nil => rfl
  | cons l lines ih =>
    cases p with
    | zero => rfl
    | succ p => exact ih.trans (by rw [Nat.add_right_comm, Nat.add_assoc]; rfl)

theorem map_fst_numbered :
    (numbered 0 lines).map Prod.fst = (List.range lines.length).map Nat.repr := by
  rw [List.range_eq_range', ← LineCall.map_fst_entriesFrom, numbered, List.map_map, List.map_map]
  rfl

theorem length_numbered : (numbered start lines).length = lines.length := by
  rw [numbered, List.length_map, ← List.length_map (·.1), LineCall.map_fst_entriesFrom,
    List.length_range']

theorem mem_numbered {item : String × CacheItem} (h : item ∈ numbered start lines) :
    ∃ l ∈ lines, item.2 = ⟨l.1, l.2, false⟩ := by
  obtain ⟨_, he, rfl⟩ := List.mem_map.1 h
  obtain ⟨i, l, hl, rfl⟩ := LineCall.mem_entriesFrom_iff.1 he
  exact ⟨l, List.mem_of_getElem? hl, rfl⟩

theorem link_inj {m n : Nat} (h : base ++ "/" ++ m.repr = base ++ "/" ++ n.repr) : m = n := by
  have hlist : (base ++ "/").toList ++ m.repr.toList = (base ++ "/").toList ++ n.repr.toList := by
    rw [← String.toList_append, ← String.toList_append, h]
  exact Text.repr_inj.1 (String.toList_inj.1 (List.append_cancel_left hlist))

variable {folder path : String} {entries : List FolderEntry} {assets : Assets} {paths : List String}
  {manifest : Manifest} {manifests : List Manifest} {es es' : List Event}

/-- The item at a position is made of the path and the manifest at this position. -/
theorem items_at (h : Upload.items base paths manifests = .ok items) (hpath : paths[p]? = some path)
    (hmanifest : manifests[p]? = some manifest) :
    ∃ index, Assets.index path = .ok index ∧ items[p]? = some (p.repr,
      ⟨manifest.name, Text.trimEndOf '/' base ++ "/" ++ index.toNat.repr, false⟩) := by
  obtain ⟨lines, hlines, rfl⟩ := itemsFrom_ok h
  have hfile : (paths.zip manifests)[p]? = some (path, manifest) :=
    List.getElem?_zip_eq_some.2 ⟨hpath, hmanifest⟩
  obtain ⟨index, hindex, hline⟩ := hlines.at hfile
  exact ⟨index, hindex, by rw [getElem?_numbered, hline, Nat.zero_add]; rfl⟩

/-- Items that name the files of a folder, by what was read from them. -/
structure NamesFiles (folder : String) (entries : List FolderEntry) (base : String)
    (es : List Event) (items : List (String × CacheItem)) : Prop where
  keys : items.map Prod.fst =
    (List.range (Assets.filesOf .manifest entries).length).map Nat.repr
  pending : ∀ item ∈ items, item.2.onChain = false
  /-- The file with the least number is the first one, and each of them has its own item. -/
  files : ∃ first files trimmed,
    Assets.Ascending entries files (List.range' first files.length) ∧ Text.Trimmed base trimmed ∧
    ∀ (p : Nat) (e : FolderEntry), files[p]? = some e → e.HasNumber (first + p) ∧ ∃ bs manifest,
      es[p]? = some ⟨.read (e.path folder), Content.bytes bs⟩ ∧
      Manifest.ofBytes? bs = some manifest ∧
      items[p]? = some (p.repr, ⟨manifest.name, trimmed ++ "/" ++ (first + p).repr, false⟩)
  limits : ∀ item ∈ items,
    Bytes.sizeOfText item.2.name ≤ 32 ∧ Bytes.sizeOfText item.2.link ≤ 200
  distinct : (items.map fun item => item.2.link).Nodup

/-- The number that is read off the path of a file. -/
theorem index_path {e : FolderEntry} {n : Nat} {index : UInt64} (hlistable : e.IsListable)
    (hvisible : e.IsVisible) (hnumber : e.HasNumber n)
    (hindex : Assets.index (e.path folder) = .ok index) : index.toNat = n := by
  obtain ⟨stem, extension, m, hsplits, hm, rfl⟩ := hnumber
  have hname := e.fileName?_path folder hlistable hvisible
  cases hindex.symm.trans (FolderEntry.index_eq_ok hname hsplits hm)
  rfl

/-- **Every item names its own file**, and no other item has its link. -/
theorem items_name_files (hlistable : ∀ e ∈ entries, e.IsListable)
    (hfolder : (Assets.ofFolder folder).Runs (⟨.list folder, some entries⟩ :: es) (.ok assets))
    (hread : (Manifest.readAll assets.manifests).Runs es' (.ok manifests))
    (hitems : Upload.items base assets.manifests manifests = .ok items) :
    NamesFiles folder entries base es' items := by
  have hresult := (Assets.runs_ofFolder_iff hlistable).1 hfolder
  have houtcome := (Assets.ofEntries_result folder hlistable).outcome
  rw [← hresult.2] at houtcome
  obtain ⟨first, files, hascending, hmanifests⟩ := (houtcome.gathered assets rfl).manifests
  obtain ⟨lines, hlines, hnumbered⟩ := itemsFrom_ok hitems
  have hlength : lines.length = files.length := by
    rw [hlines.length_eq, List.length_zip, (Manifest.readAll_runs hread).length_eq, Nat.min_self,
      hmanifests, List.length_map]
  have hfiles : ∀ (p : Nat) (e : FolderEntry), files[p]? = some e → e.HasNumber (first + p) ∧
      ∃ bs manifest, es'[p]? = some ⟨.read (e.path folder), Content.bytes bs⟩ ∧
        Manifest.ofBytes? bs = some manifest ∧ items[p]? = some (p.repr,
          ⟨manifest.name, Text.trimEndOf '/' base ++ "/" ++ (first + p).repr, false⟩) := by
    intro p e he
    obtain ⟨hp, rfl⟩ := List.getElem?_eq_some_iff.1 he
    have hfile := Assets.mem_filesOf_iff.1 (hascending.perm.mem_iff.1 (List.getElem_mem hp))
    have hnumber : files[p].HasNumber (first + p) := by
      simpa using hascending.hasNumbers.get hp (by simpa using hp)
    have hpath : assets.manifests[p]? = some (files[p].path folder) := by
      rw [hmanifests, List.getElem?_map, he]
      rfl
    obtain ⟨bs, manifest, hes, hmanifest, hat⟩ := Manifest.readAll_at hread hpath
    obtain ⟨index, hindex, hitem⟩ := items_at hitems hpath hat
    rw [index_path (hlistable _ hfile.1) hfile.2.isVisible hnumber hindex] at hitem
    exact ⟨hnumber, bs, manifest, hes, hmanifest, hitem⟩
  exact
    { keys := by rw [hnumbered, map_fst_numbered, hlength, hascending.perm.length_eq]
      pending := by
        intro item hitem
        obtain ⟨l, -, hl⟩ := mem_numbered (hnumbered ▸ hitem)
        rw [hl]
      files := ⟨first, files, Text.trimEndOf '/' base, hascending, Text.trimmed_trimEndOf base, hfiles⟩
      limits := by
        intro item hitem
        obtain ⟨l, hl, hitem⟩ := mem_numbered (hnumbered ▸ hitem)
        rw [hitem]
        exact hlines.limits l hl
      distinct := by
        have hlinks : (items.map fun item => item.2.link) = (List.range files.length).map fun p =>
            Text.trimEndOf '/' base ++ "/" ++ (first + p).repr := by
          refine List.ext_getElem (by simp [hnumbered, length_numbered, hlength])
            fun p hp hp' => ?_
          have hp'' : p < files.length := by simpa using hp'
          obtain ⟨-, _, manifest, -, -, hitem⟩ := hfiles p _ (List.getElem?_eq_getElem hp'')
          obtain ⟨_, hitem⟩ := List.getElem?_eq_some_iff.1 hitem
          rw [List.getElem_map, List.getElem_map, hitem, List.getElem_range]
        rw [hlinks]
        exact List.nodup_range.map fun p q h => Nat.add_left_cancel (link_inj h) }

/-- What a sample manifest says. -/
def Sample.named (name : String) : Manifest :=
  ⟨name, "S", "", 0, "", none, none, [], "", [⟨some "11111111111111111111111111111111", 100⟩]⟩

/-- Two files in the wrong order, with a base that ends with slashes. -/
theorem items_name_files_two :
    let entries : List FolderEntry := [⟨"10.json", true⟩, ⟨"+9.JSON", true⟩]
    let es : List Event := [⟨.read "a/+9.JSON", Content.bytes (Sample.manifest "A")⟩,
      ⟨.read "a/10.json", Content.bytes (Sample.manifest "B")⟩]
    let items : List (String × CacheItem) :=
      [("0", ⟨"A", "https://x/9", false⟩), ("1", ⟨"B", "https://x/10", false⟩)]
    (∀ e ∈ entries, e.IsListable) ∧
      ∃ assets manifests,
        (Assets.ofFolder "a").Runs [⟨.list "a", some entries⟩] (.ok assets) ∧
        (Manifest.readAll assets.manifests).Runs es (.ok manifests) ∧
        Upload.items "https://x//" assets.manifests manifests = .ok items ∧
        NamesFiles "a" entries "https://x//" es items := by
  intro entries es items
  have hlistable : ∀ e ∈ entries, e.IsListable := by
    have hnames : ∀ e ∈ entries, e.name ≠ "" ∧ '/' ∉ e.name.toList := by decide
    exact fun e he => ⟨(hnames e he).1, (hnames e he).2⟩
  have hsorted : ([(10, "a/10.json"), (9, "a/+9.JSON")] : List (UInt64 × String)).mergeSort
      Assets.indexLE = [(9, "a/+9.JSON"), (10, "a/10.json")] := by
    simp [List.mergeSort, Assets.indexLE]
  have horder : Assets.inOrder (Assets.ofKind .manifest (Assets.paths "a" entries)) =
      .ok ["a/+9.JSON", "a/10.json"] := by
    refine Assets.inOrder_eq_ok_iff.2 ⟨[(10, "a/10.json"), (9, "a/+9.JSON")], by decide +kernel, ?_⟩
    rw [hsorted]
    exact ⟨⟨9, by decide⟩, rfl⟩
  have hentries : Assets.ofEntries "a" entries = .ok ⟨[], [], ["a/+9.JSON", "a/10.json"]⟩ := by
    have hothers : Assets.ofKind .image (Assets.paths "a" entries) = [] ∧
        Assets.ofKind .animation (Assets.paths "a" entries) = [] := by decide +kernel
    simp only [Assets.ofEntries, horder, hothers]
    rfl
  have hfolder : (Assets.ofFolder "a").Runs [⟨.list "a", some entries⟩]
      (.ok ⟨[], [], ["a/+9.JSON", "a/10.json"]⟩) := by
    have hwarned : Assets.others entries = [] := by decide
    exact (Assets.runs_ofFolder_iff hlistable).2
      ⟨by rw [Assets.warned, hwarned, List.map_nil], by rw [hentries]; rfl⟩
  have hread : (Manifest.readAll ["a/+9.JSON", "a/10.json"]).Runs es
      (.ok [Sample.named "A", Sample.named "B"]) :=
    Manifest.runs_readEach_cons_iff.2 ⟨_, Sample.named "A", _, _, rfl, by decide +kernel,
      Manifest.runs_readEach_cons_iff.2 ⟨_, Sample.named "B", _, _, rfl, by decide +kernel,
        .done [], rfl⟩, rfl⟩
  have hitems : Upload.items "https://x//" ["a/+9.JSON", "a/10.json"]
      [Sample.named "A", Sample.named "B"] = .ok items := by rfl
  exact ⟨hlistable, _, _, hfolder, hread, hitems,
    items_name_files hlistable hfolder hread hitems⟩

end Upload

end CandyDrop
