import CandyDrop.Proofs.Cache.RoundTrip
import CandyDrop.Proofs.Script.Reaches
import CandyDrop.Proofs.Text.Integer
import CandyDrop.Proofs.Upload.Collection
import CandyDrop.Proofs.Upload.Coverage
import CandyDrop.Proofs.Upload.Items
import CandyDrop.Proofs.Upload.Rounds
import CandyDrop.Proofs.Upload.Stages
import Mathlib.Data.Nat.Digits.Defs

/-!
# Uploads without trouble

The collection of `n` items (`Sample.collection`) has an image and a manifest for each. An upload of
it to a machine that is recorded can go without trouble (`Sample.Smooth`): the folder is listed, every
file is read, every batch is accepted and every record is saved (`Sample.reaches_run`). Such an upload
succeeds with the lines of the collection (`Sample.exists_upload`).
-/

namespace CandyDrop

open Script

/-! ## A collection of any size -/

namespace Sample

theorem toNat_ofNat {i : Nat} (h : i < 2 ^ 64) : (UInt64.ofNat i).toNat = i :=
  UInt64.toNat_ofNat_of_lt' h

/-- The file of an item in a folder. -/
def file (extension : String) (i : Nat) : FolderEntry := ⟨i.repr ++ "." ++ extension, true⟩

/-- The folder of a collection of `n` items: an image and a manifest for each. -/
def entries (n : Nat) : List FolderEntry :=
  (List.range n).map (file "png") ++ (List.range n).map (file "json")

variable {extension folder : String} {kind : AssetKind} {i n : Nat}

theorem splits_file (h : '.' ∉ extension.toList) (i : Nat) :
    (file extension i).Splits i.repr extension :=
  ⟨rfl, Text.repr_ne_empty i, h⟩

theorem isVisible_file (extension : String) (i : Nat) : (file extension i).IsVisible where
  isFile := rfl
  notHidden := by
    intro h
    cases hc : i.repr.toList with
    | nil => exact Text.repr_ne_empty i (String.toList_eq_nil_iff.1 hc)
    | cons c cs =>
      have hdigit : c.isDigit = true := Text.isDigit_of_mem_repr (i := i) (by simp [hc])
      have hdot : c = '.' := by simpa [file, hc] using h
      rw [hdot] at hdigit
      cases hdigit

theorem isListable_file (h : '/' ∉ extension.toList) (i : Nat) : (file extension i).IsListable where
  name_ne := by
    intro hempty
    simp [file] at hempty
  noSlash := by
    intro hslash
    have hmem : '/' ∈ i.repr.toList := by simpa [file, h] using hslash
    cases Text.isDigit_of_mem_repr hmem

theorem isListable_entries (n : Nat) : ∀ e ∈ entries n, e.IsListable := by
  intro e he
  rcases List.mem_append.1 he with he | he
  · obtain ⟨i, -, rfl⟩ := List.mem_map.1 he
    exact isListable_file (by decide) i
  · obtain ⟨i, -, rfl⟩ := List.mem_map.1 he
    exact isListable_file (by decide) i

/-- A file is of the kind of its extension and of no other. -/
theorem isFileOf_file (h : '.' ∉ extension.toList) (i : Nat) : (file extension i).IsFileOf kind ↔
    String.ofList (extension.toList.map Char.toLower) ∈ kind.extensions := by
  constructor
  · intro hfile
    obtain ⟨stem, extension', hsplits, hmem⟩ := hfile.hasExtension
    obtain ⟨-, rfl⟩ := (splits_file h i).unique hsplits
    exact hmem
  · exact fun hmem => ⟨isVisible_file extension i, _, _, splits_file h i, hmem⟩

theorem filesOf_entries (n : Nat) :
    Assets.filesOf .image (entries n) = (List.range n).map (file "png") ∧
      Assets.filesOf .animation (entries n) = [] ∧
      Assets.filesOf .manifest (entries n) = (List.range n).map (file "json") := by
  have hpng (kind : AssetKind) (i : Nat) :
      decide ((file "png" i).IsFileOf kind) = decide (kind = .image) := by
    rw [decide_eq_decide, isFileOf_file (by decide)]
    cases kind <;> decide
  have hjson (kind : AssetKind) (i : Nat) :
      decide ((file "json" i).IsFileOf kind) = decide (kind = .manifest) := by
    rw [decide_eq_decide, isFileOf_file (by decide)]
    cases kind <;> decide
  simp [Assets.filesOf, entries, List.filter_map, Function.comp_def, hpng, hjson]

/-- The path of a manifest of the collection. -/
def path (folder : String) (i : Nat) : String := (file "json" i).path folder

theorem index_path (folder : String) (hi : i < 2 ^ 64) :
    Assets.index (path folder i) = .ok (UInt64.ofNat i) := by
  have hname := (file "json" i).fileName?_path folder (isListable_file (by decide) i)
    (isVisible_file "json" i)
  exact FolderEntry.index_eq_ok hname (splits_file (by decide) i) (Text.uint64?_repr hi)

/-- The manifests with their numbers, from a position on. -/
def indices (folder : String) (start n : Nat) : List (UInt64 × String) :=
  (List.range' start n).map fun i => (UInt64.ofNat i, path folder i)

theorem indexed_paths (folder : String) {start n : Nat} (h : start + n ≤ 2 ^ 64) :
    Assets.indexed ((List.range' start n).map (path folder)) = .ok (indices folder start n) := by
  induction n generalizing start with
  | zero => rfl
  | succ n ih =>
    rw [List.range'_succ, List.map_cons, Assets.indexed, index_path folder (by omega),
      ih (by omega)]
    rfl

theorem gap?_indices (folder : String) (start n : Nat) :
    Assets.gap? (UInt64.ofNat start) (indices folder start n) = none := by
  induction n generalizing start with
  | zero => rfl
  | succ n ih =>
    have hnext : UInt64.ofNat start + 1 = UInt64.ofNat (start + 1) := by
      rw [← UInt64.toNat_inj]
      simp
    rw [indices, List.range'_succ, List.map_cons, Assets.gap?, if_pos rfl, hnext]
    exact ih (start + 1)

theorem sorted_indices (folder : String) {n : Nat} (h : n ≤ 2 ^ 64) :
    (indices folder 0 n).mergeSort Assets.indexLE = indices folder 0 n := by
  apply List.mergeSort_of_pairwise
  rw [indices, List.pairwise_map]
  refine List.Pairwise.imp_of_mem (fun hi hj hij => ?_) List.pairwise_lt_range'
  simp only [List.mem_range'_1] at hi hj
  rw [Assets.indexLE, decide_eq_true_eq, UInt64.le_iff_toNat_le, toNat_ofNat (by omega),
    toNat_ofNat (by omega)]
  exact Nat.le_of_lt hij

/-- The files of the collection. -/
def assets (folder : String) (n : Nat) : Assets where
  images := (List.range n).map fun i => (file "png" i).path folder
  animations := []
  manifests := (List.range n).map (path folder)

theorem ofEntries_entries (folder : String) (h : n ≤ 2 ^ 64) :
    Assets.ofEntries folder (entries n) = .ok (assets folder n) := by
  obtain ⟨himages, hanimations, hmanifests⟩ := filesOf_entries n
  have horder : Assets.inOrder ((List.range n).map (path folder)) =
      .ok ((List.range n).map (path folder)) := by
    rw [List.range_eq_range']
    refine Assets.inOrder_eq_ok_iff.2
      ⟨indices folder 0 n, indexed_paths folder (by omega), ?_⟩
    rw [sorted_indices folder h]
    exact ⟨⟨_, gap?_indices folder 0 n⟩, by simp [indices]⟩
  simp only [Assets.ofEntries, Assets.ofKind_paths (isListable_entries n), himages, hanimations,
    hmanifests, List.map_map, List.map_nil]
  change (Assets.inOrder ((List.range n).map (path folder)) >>= _) = _
  rw [horder]
  rfl

/-! ## What is read of the collection -/

/-- A configuration for one item more than 32 bits can number. -/
def wide : Config := { config with number := some 4294967297 }

/-- The collection of `n` items. -/
def collection (n : Nat) : Upload.Collection := ⟨entries n, fun _ => manifest "A"⟩

/-- The link of an item. -/
def link (i : Nat) : String := "https://x" ++ "/" ++ i.repr

/-- The lines of the collection. -/
def lines (n : Nat) : List (String × String) := (List.range n).map fun i => ("A", link i)

@[simp] theorem length_lines (n : Nat) : (lines n).length = n := by
  simp [lines]

theorem mem_entries_lines (h : i < n) :
    (i, "A", link i) ∈ LineCall.entriesFrom 0 (lines n) := by
  have hline : (lines n)[i]? = some ("A", link i) := by
    simp [lines, h]
  exact LineCall.mem_entriesFrom_iff.2 ⟨i, _, hline, by rw [Nat.zero_add]⟩

/-- Nobody stops the upload, what is written is kept, and what is seen of the folder is the
collection. -/
structure Smooth (n : Nat) (e : Event) : Prop where
  saves : e.saves
  letsGoOn : e.letsGoOn
  sees : (collection n).sees options.directory e

theorem sizeOfText_link (h : i < 2 ^ 64) : Bytes.sizeOfText (link i) ≤ Checks.maxUrlLength := by
  have hdigits : ∀ c ∈ i.repr.toList, c.utf8Size = 1 := by
    intro c hc
    have hdigit := Text.isDigit_of_mem_repr hc
    rw [Char.isDigit, Bool.and_eq_true, decide_eq_true_eq, decide_eq_true_eq] at hdigit
    exact Char.utf8Size_eq_one_iff.2 (UInt32.le_trans hdigit.2 (by decide))
  have hsize := Address.sizeOfText_ofList hdigits
  have hlength : i.repr.length ≤ 20 := Nat.repr_length i 20 (by omega) (by omega)
  rw [String.ofList_toList, String.length_toList] at hsize
  have hbase : ("https://x" ++ "/").utf8ByteSize = 10 := by rfl
  rw [Bytes.sizeOfText] at hsize
  rw [Bytes.sizeOfText, link, String.utf8ByteSize_append, hbase, hsize, Checks.maxUrlLength]
  omega

/-- What a manifest of the collection says. -/
abbrev item : Manifest := Upload.Sample.named "A"

/-- The manifests have these lines. -/
theorem lines_paths (folder : String) {start n : Nat} (h : start + n ≤ 2 ^ 64) :
    Upload.Lines "https://x" ((List.range' start n).map fun i => (path folder i, item))
      ((List.range' start n).map fun i => ("A", link i)) := by
  induction n generalizing start with
  | zero => exact .nil
  | succ n ih =>
    have hindex : (UInt64.ofNat start).toNat = start := toNat_ofNat (by omega)
    have hlink : link start = "https://x" ++ "/" ++ (UInt64.ofNat start).toNat.repr := by
      rw [hindex, link]
    have hsize := sizeOfText_link (i := start) (by omega)
    simp only [List.range'_succ, List.map_cons]
    rw [hlink] at hsize ⊢
    exact .cons (index_path folder (by omega)) (by decide) hsize (ih (by omega))

/-- The manifests of the collection with their paths. -/
theorem zip_paths (folder : String) (n : Nat) :
    ((List.range n).map (path folder)).zip (((List.range n).map (path folder)).map fun _ => item) =
      (List.range' 0 n).map fun i => (path folder i, item) := by
  rw [List.map_map, List.zip_map', List.range_eq_range']
  rfl

theorem items_paths (folder : String) (h : n ≤ 2 ^ 64) :
    Upload.items "https://x" ((List.range n).map (path folder))
        (((List.range n).map (path folder)).map fun _ => item) =
      .ok (Upload.numbered 0 (lines n)) := by
  have hbase : Text.trimEndOf '/' "https://x" = "https://x" := by decide
  rw [Upload.items, hbase, zip_paths, lines, List.range_eq_range']
  exact (lines_paths folder (by omega)).itemsFrom_eq 0

theorem lines_collection (h : n ≤ 2 ^ 64) :
    (collection n).HasLines wide options.directory (assets options.directory n)
      ((assets options.directory n).manifests.map fun _ => item) (lines n) where
  ofEntries := ofEntries_entries options.directory h
  read := by
    have hread : Manifest.ofBytes? (manifest "A") = some item := by decide +kernel
    simp only [collection, hread]
    exact List.mapM_pure
  lines := by
    refine ⟨"https://x", rfl, ?_⟩
    have hbase : Text.trimEndOf '/' "https://x" = "https://x" := by decide
    rw [hbase, assets, zip_paths, lines, List.range_eq_range']
    exact lines_paths options.directory (by omega)

/-! ## An upload of the collection -/

section

variable {w : World} {line : String}

theorem smooth_say (n : Nat) (line : String) : Smooth n ⟨.say line, ()⟩ := ⟨rfl, rfl, rfl⟩

theorem smooth_read (n : Nat) (p : String) : Smooth n ⟨.read p, .bytes (manifest "A")⟩ where
  saves := rfl
  letsGoOn := rfl
  sees := Upload.Collection.sees_read fun _ _ _ => rfl

theorem ofContent_manifest (p : String) :
    Manifest.ofContent p (.bytes (manifest "A")) = .ok item := by
  have hread : Manifest.ofBytes? (manifest "A") = some item := by decide +kernel
  have hcheck : item.check = .ok () := by decide
  simp only [Manifest.ofContent, hread, hcheck]

/-- The record is not named by a number, and so it is none of the manifests. -/
theorem path_ne_record (h : i < 2 ^ 64) : options.path ≠ path options.directory i := by
  intro heq
  have hindex := index_path options.directory h
  rw [← heq] at hindex
  have hrecord : (Assets.index options.path).isOk = false := by decide
  rw [hindex] at hrecord
  cases hrecord

theorem record_not_mem (h : n ≤ 2 ^ 64) :
    options.path ∉ (List.range n).map (path options.directory) := by
  intro hmem
  obtain ⟨i, hi, heq⟩ := List.mem_map.1 hmem
  rw [List.mem_range] at hi
  exact path_ne_record (by omega) heq.symm

theorem gives_readEach {paths : List String} (h : options.path ∉ paths) :
    (Manifest.readEach paths).Gives options.path (Smooth n) (paths.map fun _ => item) w := by
  induction paths with
  | nil => exact gives_done _
  | cons p ps ih =>
    rw [List.mem_cons, not_or] at h
    have hpermits : w.permits options.path ⟨.read p, .bytes (manifest "A")⟩ = true := by
      simp [World.permits, Ne.symm h.1]
    refine .ask (.bytes (manifest "A")) (smooth_read n p) hpermits ?_
    refine (gives_ofExcept (ofContent_manifest p)).bind ?_
    exact (ih h.2).bind (gives_done _)

theorem gives_warnAll (texts : List String) :
    (Assets.warnAll texts).Gives options.path (Smooth n) () w := by
  induction texts with
  | nil => exact gives_done ()
  | cons t ts ih => exact .ask () ⟨rfl, rfl, rfl⟩ rfl ih

/-- The folder can be listed and holds the files of the collection. -/
theorem gives_ofFolder (h : n ≤ 2 ^ 64) :
    (Assets.ofFolder options.directory).Gives options.path (Smooth n)
      (assets options.directory n) w := by
  have hlisted : Smooth n ⟨.list options.directory, some (entries n)⟩ :=
    ⟨rfl, rfl, List.isPerm_iff.2 (List.Perm.refl _)⟩
  exact .ask (some (entries n)) hlisted rfl
    ((gives_warnAll _).bind (gives_ofExcept (ofEntries_entries options.directory h)))

theorem checkCounts_assets (folder : String) (h : n ≤ 4294967297) :
    (assets folder n).checkCounts .nftStorage wide.number = .ok 4294967297 := by
  have hle : ¬(4294967297 : UInt64) < UInt64.ofNat n := by
    rw [UInt64.not_lt, UInt64.le_iff_toNat_le, toNat_ofNat (by omega)]
    exact h
  simp [Assets.checkCounts, assets, wide, hle]

theorem gives_plan (hpos : 0 < n) (h : n ≤ 4294967297) :
    ∃ details, (Upload.plan wide options).Gives options.path (Smooth n)
      ⟨details, none, 4294967297, n, Upload.numbered 0 (lines n)⟩ w := by
  have hstorage : Upload.storage wide options.place.env = .done .nftStorage := rfl
  have hpaths : ¬(assets options.directory n).manifests.isEmpty := by
    simpa [assets] using Nat.ne_of_gt hpos
  obtain ⟨details, hdetails⟩ := exists_eq_ok_of_isOk (x := Upload.detailsOf [item]) (by decide +kernel)
  have hfirst : Upload.detailsOf ((assets options.directory n).manifests.map fun _ => item) =
      .ok details := by
    obtain ⟨m, rfl⟩ := Nat.exists_eq_add_one.2 hpos
    rw [assets, List.range_succ_eq_map]
    exact hdetails
  refine ⟨details, ?_⟩
  rw [Upload.plan, hstorage]
  refine (gives_done _).bind ((gives_say (smooth_say n _)).bind ?_)
  refine (gives_ofFolder (by omega)).bind ?_
  refine (gives_ofExcept (checkCounts_assets _ h)).bind ?_
  rw [Manifest.readAll, if_neg hpaths]
  refine (gives_readEach (record_not_mem (by omega))).bind ?_
  refine (gives_ofExcept (x := "https://x") rfl).bind ?_
  refine (gives_ofExcept (items_paths options.directory (by omega))).bind ?_
  refine (gives_ofExcept hfirst).bind ?_
  refine (gives_ofExcept (x := none) rfl).bind ?_
  simp only [List.length_map, List.length_range]
  exact gives_done _

/-! ### Writing -/

theorem reaches_trySave (c : Cache) :
    c.trySave.Reaches options.path (Smooth n) (fun x _ => x = (c.ordered, none)) w :=
  .ask none ⟨rfl, rfl, rfl⟩ rfl rfl

theorem reaches_save (c : Cache) :
    c.save.Reaches options.path (Smooth n) (fun x _ => x = c.ordered) w := by
  refine (reaches_trySave c).bind ?_
  rintro _ _ rfl
  rfl

theorem reaches_startAll (machine : Address) (bs : List Batch) :
    (Schedule.startAll payer machine bs).Reaches options.path (Smooth n) (fun _ _ => True) w := by
  induction bs generalizing w with
  | nil => trivial
  | cons b bs ih => exact .ask () ⟨rfl, rfl, rfl⟩ rfl ih

/-- Nothing went wrong so far. -/
structure Untroubled (p : Schedule.Progress) : Prop where
  faults : p.faults = []
  saveFault : p.saveFault = none

theorem reaches_record {p : Schedule.Progress} (h : Untroubled p) (batch : Batch)
    (signature : Signature) :
    (Schedule.record batch (.ok signature) p).Reaches options.path (Smooth n)
      (fun p' _ => Untroubled p') w := by
  rw [Schedule.record_of_done fun _ => ⟨signature, rfl⟩]
  refine (reaches_trySave _).bind ?_
  rintro _ v rfl
  refine ⟨h.faults, ?_⟩
  rw [h.saveFault]
  rfl

/-- Every batch is accepted, and none is left. -/
theorem reaches_drain (machine : Address) {out waiting : List Batch} {p : Schedule.Progress}
    (h : Untroubled p) (hwaiting : out = [] → waiting = []) :
    (Schedule.drain payer machine out waiting p).Reaches options.path (Smooth n)
      (fun x _ => Untroubled x.1 ∧ x.2 = []) w := by
  induction out, waiting, p using Schedule.drain.induct generalizing w with
  | case1 waiting p =>
    rw [Schedule.drain]
    exact ⟨h, hwaiting rfl⟩
  | case2 waiting p b bs ih =>
    rw [Schedule.drain]
    refine .ask (0, .ok ⟨0⟩) ⟨rfl, rfl, rfl⟩ rfl ?_
    refine (reaches_record h _ ⟨0⟩).bind fun p₁ v hp₁ => ?_
    refine .ask false ⟨rfl, rfl, rfl⟩ rfl ?_
    cases waiting with
    | nil => exact ih 0 p₁ false hp₁ fun _ => rfl
    | cons next later => exact .ask () ⟨rfl, rfl, rfl⟩ rfl (ih 0 p₁ false hp₁ (by simp))

theorem reaches_runAll (machine : Address) (c : Cache) (bs : List Batch) :
    (Schedule.runAll payer machine options.rateLimit c bs).Reaches options.path (Smooth n)
      (fun ending _ => ending.saveFault = none ∧ ending.outcome.success = true) w := by
  refine (gives_say (smooth_say n _)).bind ?_
  refine (reaches_startAll machine _).bind fun _ v _ => ?_
  have hwaiting : bs.take (Schedule.effectiveLimit options.rateLimit) = [] →
      bs.drop (Schedule.effectiveLimit options.rateLimit) = [] := by
    cases bs with
    | nil => exact fun _ => rfl
    | cons b bs => exact fun h => nomatch h
  refine (reaches_drain machine (p := ⟨c, [], [], none⟩) ⟨rfl, rfl⟩ hwaiting).bind ?_
  rintro ⟨p, left⟩ u ⟨hp, rfl⟩
  refine (reaches_trySave _).bind ?_
  rintro _ v rfl
  refine ⟨hp.saveFault, ?_⟩
  change p.faults.isEmpty = true
  rw [hp.faults]
  rfl

theorem reaches_writeLines (machine : Address) (bs : List Batch) (c : Cache) :
    (Upload.writeLines payer machine options.rateLimit bs c).Reaches options.path (Smooth n)
      (fun _ _ => True) w := by
  cases bs with
  | nil => exact (gives_say (smooth_say n _)).bind trivial
  | cons b bs =>
    refine Reaches.bind (Q := fun x _ => x.2.success = true) ?_ ?_
    · refine (reaches_runAll machine c _).bind ?_
      rintro ⟨c', outcome, fault⟩ v ⟨rfl, hsuccess⟩
      exact hsuccess
    · rintro ⟨c', outcome⟩ v hsuccess
      change outcome.success = true at hsuccess
      simp only [hsuccess]
      trivial

theorem reaches_machine {machine : Address} {c : Cache} (h : c.machine = .ok (some machine))
    (settings : Settings) (p : Upload.Plan) :
    (Upload.machine payer settings p c).Reaches options.path (Smooth n)
      (fun x _ => x = (machine, c.ordered)) w := by
  refine (gives_ofExcept h).bind ((gives_say (smooth_say n _)).bind ?_)
  refine (reaches_save c).bind ?_
  rintro _ _ rfl
  rfl

/-! ### The whole -/

theorem gives_load (hn : n ≤ 2 ^ 64) {c : Cache} (h : w.record = .bytes (Bytes.ofText c.render)) :
    (Cache.load place.folder place.env place.name true).Gives options.path (Smooth n)
      { c with path := options.path } w := by
  have hsees : (collection n).sees options.directory
      ⟨.read options.path, .bytes (Bytes.ofText c.render)⟩ = true := by
    refine Upload.Collection.sees_read fun found hfound hmem => ?_
    cases (ofEntries_entries options.directory hn).symm.trans hfound
    exact absurd hmem (record_not_mem hn)
  have hpermits : w.permits options.path
      ⟨.read options.path, .bytes (Bytes.ofText c.render)⟩ = true := by
    simp [World.permits, h, Content.reads]
  have hcontent : Cache.ofContent options.path place.env place.name true
      (.bytes (Bytes.ofText c.render)) = .ok { c with path := options.path } := by
    rw [Cache.ofContent, Cache.ofBytes?_render]
  exact .ask _ ⟨rfl, rfl, hsees⟩ hpermits (gives_ofExcept hcontent)

/-- Every manifest of the collection has an item with a name and a link. -/
theorem exists_batches (h : n ≤ 4294967297) (c : Cache) :
    ∃ bs, Batch.ofItems (UInt64.ofNat n)
      (Upload.merge (Upload.numbered 0 (lines n)) c).ordered.items = .ok bs := by
  have hitem (i : Nat) (hi : i < n) : ∃ onChain,
      (Upload.merge (Upload.numbered 0 (lines n)) c).ordered.items.get? i.repr =
        some ⟨"A", link i, onChain⟩ := by
    exact ⟨_, (Cache.get?_ordered _ _).trans (Upload.get?_merge (mem_entries_lines hi))⟩
  have hcount : (UInt64.ofNat n).toNat = n := toNat_ofNat (by omega)
  cases hslots : Slot.ofItems (Upload.merge (Upload.numbered 0 (lines n)) c).ordered.items n 0 with
  | ok slots => exact ⟨_, Batch.ofItems_eq_ok_iff.2 ⟨slots, hcount.symm ▸ hslots, rfl⟩⟩
  | error e =>
    obtain ⟨i, -, hi, hfault, -⟩ := Slot.ofItems_eq_error_iff.1 hslots
    obtain ⟨onChain, hget⟩ := hitem i (by omega)
    cases hfault with
    | item hnone =>
      rw [hget] at hnone
      cases hnone
    | name hsome _ hname =>
      rw [hget] at hsome
      cases hsome
      simp at hname
    | link hsome _ _ hlink =>
      rw [hget] at hsome
      cases hsome
      simp [link] at hlink

/-- The configuration is converted without a question. -/
theorem exists_resolve : ∃ settings : Settings, Settings.resolve wide payer 0 = .done settings ∧
    settings.hiddenSettings = none := by
  obtain ⟨parts, hparts⟩ :=
    exists_eq_ok_of_isOk (x := LocalSettings.ofConfig 0 wide) (by decide +kernel)
  obtain ⟨settings, hsettings⟩ := Settings.exists_assemble hparts
    ⟨wide.solTreasuryAccount.getD payer, none, Config.nativeDecimals⟩
  have hresolve : Settings.resolve wide payer 0 = .done settings := by
    rw [Settings.resolve, hparts]
    exact congrArg (Script.ofExcept Failure.config) hsettings
  have hruns : (Settings.resolve wide payer 0).Runs [] (.ok settings) := by
    rw [hresolve]
    exact .done settings
  have hhidden := Upload.hiddenSettings_of_resolve hruns
  exact ⟨settings, hresolve, Option.isNone_iff_eq_none.1 (Option.isSome_eq_false_iff.1 hhidden)⟩

/-- **An upload of the collection** to a recorded machine can succeed without trouble. -/
theorem reaches_run (hpos : 0 < n) (h : n ≤ 4294967297) {machine : Address} {c : Cache}
    (hmachine : c.machine = .ok (some machine))
    (hrecord : w.record = .bytes (Bytes.ofText c.render)) :
    (Upload.run payer 0 wide options).Reaches options.path (Smooth n)
      (fun m _ => m = machine) w := by
  obtain ⟨details, hplan⟩ := gives_plan (w := w) hpos h
  obtain ⟨settings, hsettings, hhidden⟩ := exists_resolve
  obtain ⟨bs, hbs⟩ := exists_batches h { c with path := options.path }
  have hmerged : (Upload.merge (Upload.numbered 0 (lines n))
      { c with path := options.path }).machine = .ok (some machine) := hmachine
  have hbatches : Upload.batches settings n (Upload.merge (Upload.numbered 0 (lines n))
      { c with path := options.path }).ordered = .ok bs := by
    rw [Upload.batches, hhidden]
    exact hbs
  refine hplan.bind ((gives_done ()).bind ?_)
  rw [hsettings]
  refine (gives_done settings).bind ((gives_load (by omega) hrecord).bind ?_)
  refine (gives_say (smooth_say n _)).bind ((reaches_machine hmerged settings _).bind ?_)
  rintro _ v rfl
  refine (gives_say (smooth_say n _)).bind ((gives_ofExcept hbatches).bind ?_)
  exact (reaches_writeLines machine bs _).bind fun _ _ _ => rfl

/-- **Such an upload** succeeds, finds the lines of the collection, and has all of its batches
accepted. -/
theorem exists_upload (hpos : 0 < n) (h : n ≤ 4294967297) {machine : Address} {c : Cache}
    (hmachine : c.machine = .ok (some machine)) (hout : w.out = [])
    (hrecord : w.record = .bytes (Bytes.ofText c.render)) :
    ∃ es₁ es₂ p w' v v₁ c' t assets manifests,
      (Upload.run payer 0 wide options).Runs (es₁ ++ es₂) (.ok machine) ∧
      (Upload.prepare payer 0 wide options).Runs es₁ (.ok p) ∧
      w.Follows options.path (es₁ ++ es₂) w' ∧ (∀ e ∈ es₁ ++ es₂, Smooth n e) ∧
      Upload.Performed payer wide options (es₁ ++ es₂) w p v v₁ w' (.ok machine) c' t assets
        manifests (lines n) ∧
      p.survey.cache = { c with path := options.path } := by
  obtain ⟨es, _, w', hrun, hw, hsmooth, rfl⟩ :=
    (reaches_run hpos h hmachine hrecord).exists_runs
  have hstages := hrun
  rw [Upload.run_eq_prepare_bind_finish] at hstages
  obtain ⟨p, es₁, es₂, rfl, hprepare, hfinish⟩ := runs_bind_ok_iff.1 hstages
  obtain ⟨v, v₁, c', t, assets, manifests, found, hperformed⟩ :=
    Upload.performed_of_prepared hout hw hprepare hfinish
  have hseen := Upload.Collection.seenIn_of_sees fun e he => (hsmooth e he).sees
  obtain ⟨_, hlines, -⟩ := Upload.Collection.hasLines_of_found hperformed.ready.surveyed.found hseen
  obtain ⟨-, -, rfl⟩ := hlines.unique (lines_collection (by omega))
  have hcache := hperformed.ready.surveyed.cache
  rw [hrecord, Cache.ofContent, Cache.ofBytes?_render] at hcache
  exact ⟨es₁, es₂, p, w', v, v₁, c', t, assets, manifests, hrun, hprepare, hw, hsmooth, hperformed,
    (Except.ok.inj hcache).symm⟩

end

end Sample

end CandyDrop
