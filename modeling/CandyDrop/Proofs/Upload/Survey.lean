import CandyDrop.Proofs.Deploy.Stages
import CandyDrop.Upload.Command

/-!
# Before anything is sent

An upload first reads its folder, checks what it read, and loads the record (`Upload.survey`). All
of this asks for nothing that could change the world, and none of it fails for the sake of a single
line (`quiet_survey`). What it finds is tied here to what was read: a plan is put together from the
folder, the configuration and the options (`Planned`), the lines of the collection are those of its
manifests (`Found`, `Lines`), and the record is the content of its file (`survey_runs`).
-/

namespace CandyDrop

open Script

/-! ## Reading a collection -/

theorem Assets.quiet_warnAll (texts : List String) : (warnAll texts).Quiet := by
  induction texts with
  | nil => trivial
  | cons w ws ih => exact (only_request trivial).bind fun _ => ih

theorem Assets.quiet_ofFolder (folder : String) : (ofFolder folder).Quiet := by
  refine (only_request trivial).bind fun listing => ?_
  cases listing with
  | none => exact id
  | some entries => exact (quiet_warnAll _).bind fun _ => only_ofExcept fun _ _ => id

/-- A folder that is listed has no more manifests than a machine has positions, which have 32
bits. -/
def Event.fits : Event → Bool
  | ⟨.list path, some entries⟩ =>
    match Assets.ofEntries path entries with
    | .ok assets => assets.manifests.length ≤ 2 ^ 32
    | .error _ => true
  | _ => true

theorem Event.length_le_of_fits {path : String} {entries : List FolderEntry} {assets : Assets}
    (h : fits ⟨.list path, some entries⟩ = true)
    (hassets : Assets.ofEntries path entries = .ok assets) :
    assets.manifests.length ≤ 2 ^ 32 := by
  have h' : (match Assets.ofEntries path entries with
    | .ok assets => decide (assets.manifests.length ≤ 2 ^ 32)
    | .error _ => true) = true := h
  rw [hassets] at h'
  exact of_decide_eq_true h'

theorem Manifest.quiet_readEach (paths : List String) : (readEach paths).Quiet := by
  induction paths with
  | nil => trivial
  | cons p ps ih =>
    exact (only_request trivial).bind fun _ =>
      (only_ofExcept fun _ _ => id).bind fun _ => ih.bind fun _ => only_done _

theorem Manifest.quiet_readAll (paths : List String) : (readAll paths).Quiet := by
  unfold readAll
  split
  · exact id
  · exact quiet_readEach paths

/-- Manifests that were read along a transcript, each from the file at its path. -/
inductive Manifest.ReadAlong (es : List Event) : List String → List Manifest → Prop
  | nil : ReadAlong es [] []
  | cons {path : String} {bs : Bytes} {manifest : Manifest} {paths : List String}
      {manifests : List Manifest} (hread : ⟨.read path, Content.bytes bs⟩ ∈ es)
      (hmanifest : ofBytes? bs = some manifest) (rest : ReadAlong es paths manifests) :
      ReadAlong es (path :: paths) (manifest :: manifests)

namespace Manifest

variable {es fs : List Event} {paths : List String} {manifests : List Manifest}

theorem ReadAlong.mono (h : ReadAlong es paths manifests) (hsub : ∀ e ∈ es, e ∈ fs) :
    ReadAlong fs paths manifests := by
  induction h with
  | nil => exact .nil
  | cons hread hmanifest _ ih => exact .cons (hsub _ hread) hmanifest ih

theorem ReadAlong.length_eq (h : ReadAlong es paths manifests) :
    manifests.length = paths.length := by
  induction h with
  | nil => rfl
  | cons _ _ _ ih => rw [List.length_cons, List.length_cons, ih]

theorem ofContent_ok {path : String} {content : Content} {manifest : Manifest}
    (h : ofContent path content = .ok manifest) :
    ∃ bs, content = .bytes bs ∧ ofBytes? bs = some manifest := by
  unfold ofContent at h
  split at h
  · cases h
  · cases h
  · cases h
  · next bs =>
    split at h
    · cases h
    · next m hm =>
      split at h
      · cases h
        exact ⟨bs, rfl, hm⟩
      · cases h

/-- The first of some manifests is read, and then the others are. -/
theorem runs_readEach_cons_iff {path : String} :
    (readEach (path :: paths)).Runs es (.ok manifests) ↔
      ∃ content manifest rest es', es = ⟨.read path, content⟩ :: es' ∧
        ofContent path content = .ok manifest ∧ (readEach paths).Runs es' (.ok rest) ∧
        manifests = manifest :: rest := by
  constructor
  · intro h
    obtain ⟨content, es₁, es₂, rfl, hread, hafter⟩ := Script.runs_bind_ok_iff.1 h
    obtain ⟨_, rfl, ho⟩ := Script.runs_request_iff.1 hread
    cases ho
    obtain ⟨manifest, es₃, es₄, rfl, hparse, hafter₂⟩ := Script.runs_bind_ok_iff.1 hafter
    obtain ⟨rfl, ho⟩ := Script.runs_ofExcept_iff.1 hparse
    obtain ⟨rest, es₅, es₆, rfl, hrest, hend⟩ := Script.runs_bind_ok_iff.1 hafter₂
    obtain ⟨rfl, hend⟩ := Script.runs_done_iff.1 hend
    cases hend
    exact ⟨content, manifest, rest, es₅, by simp, mapError_eq_ok_iff.1 ho.symm, hrest, rfl⟩
  · rintro ⟨content, manifest, rest, es', rfl, hcontent, hrest, rfl⟩
    have hafter : (Script.ofExcept Failure.upload (ofContent path content) >>= fun m =>
        readEach paths >>= fun ms => Script.done (m :: ms)).Runs (es' ++ [])
          (.ok (manifest :: rest)) := by
      rw [hcontent]
      exact hrest.bind (.done _)
    rw [List.append_nil] at hafter
    exact .ask hafter

theorem readEach_runs (h : (readEach paths).Runs es (.ok manifests)) :
    ReadAlong es paths manifests := by
  induction paths generalizing es manifests with
  | nil =>
    obtain ⟨rfl, h⟩ := Script.runs_done_iff.1 h
    cases h
    exact .nil
  | cons p ps ih =>
    obtain ⟨content, manifest, rest, es', rfl, hcontent, hrest, rfl⟩ := runs_readEach_cons_iff.1 h
    obtain ⟨bs, rfl, hmanifest⟩ := ofContent_ok hcontent
    exact .cons (by simp) hmanifest ((ih hrest).mono fun e he => by simp [he])

theorem readAll_runs (h : (readAll paths).Runs es (.ok manifests)) :
    ReadAlong es paths manifests := by
  unfold readAll at h
  split at h
  · cases h
  · exact readEach_runs h

end Manifest

theorem Assets.ofFolder_runs {folder : String} {es : List Event} {assets : Assets}
    (h : (ofFolder folder).Runs es (.ok assets)) :
    ∃ entries, ⟨.list folder, some entries⟩ ∈ es ∧ ofEntries folder entries = .ok assets := by
  rw [ofFolder] at h
  obtain ⟨listing, es₁, es₂, rfl, hlist, hafter⟩ := Script.runs_bind_ok_iff.1 h
  obtain ⟨_, rfl, ho⟩ := Script.runs_request_iff.1 hlist
  cases ho
  cases listing with
  | none => cases hafter
  | some entries =>
    obtain ⟨_, es₃, es₄, rfl, -, hend⟩ := Script.runs_bind_ok_iff.1 hafter
    obtain ⟨rfl, ho⟩ := Script.runs_ofExcept_iff.1 hend
    exact ⟨entries, by simp, mapError_eq_ok_iff.1 ho.symm⟩

/-- Every item has a manifest, and there are at least as many items as manifests. -/
theorem Assets.checkCounts_ok {assets : Assets} {storage : Storage} {number : Option UInt64}
    {items : UInt64} (h : assets.checkCounts storage number = .ok items) :
    UInt64.ofNat assets.manifests.length ≤ items := by
  simp only [checkCounts] at h
  split at h
  · cases h
  · split at h
    · cases h
    · split at h
      · cases h
      · next himages =>
        rw [Decidable.not_not] at himages
        split at h
        · cases h
        · next hnumber =>
          cases h
          rw [← himages]
          exact UInt64.not_lt.1 hnumber

/-! ## The items of a collection -/

namespace Upload

/-- The items of lines by their positions from `start` on, none of them on the chain. -/
def numbered (start : Nat) (lines : List (String × String)) : List (String × CacheItem) :=
  (LineCall.entriesFrom start lines).map fun (i, name, link) => (i.repr, ⟨name, link, false⟩)

/-- The lines of manifests: the name is the one of the manifest, the link is made of the base and
the number of the file. Both are within their limits. -/
inductive Lines (base : String) : List (String × Manifest) → List (String × String) → Prop
  | nil : Lines base [] []
  | cons {path : String} {manifest : Manifest} {index : UInt64} {files : List (String × Manifest)}
      {lines : List (String × String)} (hindex : Assets.index path = .ok index)
      (hname : Bytes.sizeOfText manifest.name ≤ Checks.maxNameLength)
      (hlink : Bytes.sizeOfText (base ++ "/" ++ index.toNat.repr) ≤ Checks.maxUrlLength)
      (rest : Lines base files lines) :
      Lines base ((path, manifest) :: files)
        ((manifest.name, base ++ "/" ++ index.toNat.repr) :: lines)

variable {base : String} {files : List (String × Manifest)} {items : List (String × CacheItem)}
  {position : Nat}

theorem name_ok {s : String} (h : Checks.name s = .ok ()) :
    Bytes.sizeOfText s ≤ Checks.maxNameLength := by
  unfold Checks.name at h
  split at h
  · assumption
  · cases h

theorem url_ok {s : String} (h : Checks.url s = .ok ()) :
    Bytes.sizeOfText s ≤ Checks.maxUrlLength := by
  unfold Checks.url at h
  split at h
  · assumption
  · cases h

theorem itemsFrom_ok (h : itemsFrom base position files = .ok items) :
    ∃ lines, Lines base files lines ∧ items = numbered position lines := by
  induction files generalizing position items with
  | nil =>
    cases h
    exact ⟨[], .nil, rfl⟩
  | cons file files ih =>
    obtain ⟨path, manifest⟩ := file
    simp only [itemsFrom, except_bind_eq_ok_iff, mapError_eq_ok_iff] at h
    obtain ⟨index, hindex, _, hname, _, hlink, rest, hrest, h⟩ := h
    cases h
    obtain ⟨lines, hlines, rfl⟩ := ih hrest
    exact ⟨_, .cons hindex (name_ok hname) (url_ok hlink) hlines, rfl⟩

/-- What has lines makes items of them. -/
theorem Lines.itemsFrom_eq {lines : List (String × String)} (h : Lines base files lines)
    (position : Nat) :
    itemsFrom base position files = .ok (numbered position lines) := by
  induction h generalizing position with
  | nil => rfl
  | cons hindex hname hlink rest ih =>
    simp only [itemsFrom, except_bind_eq_ok_iff, mapError_eq_ok_iff]
    exact ⟨_, hindex, (), if_pos hname, (), if_pos hlink, _, ih (position + 1), rfl⟩

theorem itemsFrom_error {e : Failure} (h : itemsFrom base position files = .error e) :
    ¬e.IsAboutLines := by
  induction files generalizing position with
  | nil => cases h
  | cons file files ih =>
    obtain ⟨path, manifest⟩ := file
    simp only [itemsFrom, except_bind_eq_error_iff, mapError_eq_error_iff] at h
    rcases h with ⟨_, -, rfl⟩ |
      ⟨_, -, ⟨_, -, rfl⟩ | ⟨_, -, ⟨_, -, rfl⟩ | ⟨_, -, hrest | ⟨_, -, h⟩⟩⟩⟩
    · exact id
    · exact id
    · exact id
    · exact ih hrest
    · cases h

/-! ## The plan -/

theorem quiet_storage (config : Config) (env : String) : (storage config env).Quiet := by
  unfold storage
  split
  · exact id
  · refine (only_ofExcept fun _ _ => id).bind fun s => ?_
    exact (Assets.quiet_warnAll _).bind fun _ => only_done _

theorem baseUri_error {config : Config} {e : Failure} (h : baseUri config = .error e) :
    ¬e.IsAboutLines := by
  unfold baseUri at h
  split at h
  · split at h
    · cases h
      exact id
    · cases h
  · cases h
    exact id

theorem parse_error {option : Option String} {e : DeployFault}
    (h : CollectionMint.parse option = .error e) : ¬(Failure.deploy e).IsAboutLines := by
  unfold CollectionMint.parse at h
  split at h
  · cases h
  · split at h
    · cases h
    · split at h
      · cases h
      · cases h
        exact id

theorem quiet_plan (config : Config) (options : Options) : (plan config options).Quiet := by
  refine (quiet_storage _ _).bind fun _ => ?_
  refine (only_request trivial).bind fun _ => ?_
  refine (Assets.quiet_ofFolder _).bind fun _ => ?_
  refine (only_ofExcept fun _ _ => id).bind fun _ => ?_
  refine (Manifest.quiet_readAll _).bind fun _ => ?_
  refine (only_ofExcept fun _ h => baseUri_error h).bind fun _ => ?_
  refine (only_ofExcept fun _ h => itemsFrom_error h).bind fun _ => ?_
  refine (only_ofExcept fun _ _ => id).bind fun _ => ?_
  exact (only_ofExcept fun _ h => parse_error h).bind fun _ => only_done _

/-- What an upload found in its folder along a transcript: its files, what its manifests say and
the lines that follow from them. -/
structure Found (config : Config) (options : Options) (es : List Event) (assets : Assets)
    (manifests : List Manifest) (lines : List (String × String)) : Prop where
  listed : ∃ entries, ⟨.list options.directory, some entries⟩ ∈ es ∧
    Assets.ofEntries options.directory entries = .ok assets
  read : Manifest.ReadAlong es assets.manifests manifests
  lines : ∃ base, baseUri config = .ok base ∧
    Lines (Text.trimEndOf '/' base) (assets.manifests.zip manifests) lines

variable {config : Config} {options : Options} {es fs : List Event} {assets : Assets}
  {manifests : List Manifest} {lines : List (String × String)}

theorem Found.mono (h : Found config options es assets manifests lines)
    (hsub : ∀ e ∈ es, e ∈ fs) : Found config options fs assets manifests lines where
  listed := h.listed.imp fun _ h => ⟨hsub _ h.1, h.2⟩
  read := h.read.mono hsub
  lines := h.lines

theorem Lines.size_le (h : Lines base files lines) :
    ∀ l ∈ lines, 8 + Bytes.sizeOfText l.1 + Bytes.sizeOfText l.2 ≤ Batch.maxBytes := by
  induction h with
  | nil => simp
  | cons hindex hname hlink _ ih =>
    intro l hl
    rcases List.mem_cons.1 hl with rfl | hl
    · simp only [Checks.maxNameLength, Checks.maxUrlLength, Batch.maxBytes] at *
      omega
    · exact ih l hl

theorem Lines.link_ne_empty (h : Lines base files lines) : ∀ l ∈ lines, l.2 ≠ "" := by
  induction h with
  | nil => simp
  | cons hindex hname hlink _ ih =>
    intro l hl
    rcases List.mem_cons.1 hl with rfl | hl
    · intro hempty
      simp at hempty
    · exact ih l hl

theorem Lines.length_eq (h : Lines base files lines) : lines.length = files.length := by
  induction h with
  | nil => rfl
  | cons _ _ _ _ ih => rw [List.length_cons, List.length_cons, ih]

theorem Found.length_eq (h : Found config options es assets manifests lines) :
    lines.length = manifests.length ∧ lines.length = assets.manifests.length := by
  obtain ⟨base, -, hlines⟩ := h.lines
  have hread := h.read.length_eq
  rw [hlines.length_eq, List.length_zip]
  omega

/-- A plan that is made along a transcript, and all that it is made from. -/
structure Planned (config : Config) (options : Options) (es : List Event) (p : Plan)
    (service : Storage) (assets : Assets) (manifests : List Manifest) (base : String) : Prop where
  storage : ∃ gs, gs ⊆ es ∧ (storage config options.place.env).Runs gs (.ok service)
  listed : ∃ entries, ⟨.list options.directory, some entries⟩ ∈ es ∧
    Assets.ofEntries options.directory entries = .ok assets
  available : assets.checkCounts service config.number = .ok p.available
  read : ∃ gs, gs ⊆ es ∧ (Manifest.readAll assets.manifests).Runs gs (.ok manifests)
  start : baseUri config = .ok base
  items : Upload.items base assets.manifests manifests = .ok p.items
  details : detailsOf manifests = .ok p.details
  collection : CollectionMint.parse options.choice.mint = .ok p.collection
  count : p.count = manifests.length

theorem planned_of_runs {p : Plan} (h : (plan config options).Runs es (.ok p)) :
    ∃ service assets manifests base,
      Planned config options es p service assets manifests base := by
  simp only [plan, Script.runs_bind_ok_iff, Script.runs_ofExcept_iff, Script.runs_done_iff,
    Script.pure_eq_done] at h
  obtain ⟨service, es₁, _, rfl, hstorage, _, es₂, _, rfl, -, assets, es₃, _, rfl, hassets, available,
    es₄, _, rfl, ⟨rfl, havailable⟩, manifests, es₅, _, rfl, hmanifests, base, es₆, _, rfl,
    ⟨rfl, hbase⟩, items, es₇, _, rfl, ⟨rfl, hitems⟩, details, es₈, _, rfl, ⟨rfl, hdetails⟩,
    collection, es₉, _, rfl, ⟨rfl, hcollection⟩, rfl, ho⟩ := h
  cases ho
  obtain ⟨entries, hlisted, hentries⟩ := Assets.ofFolder_runs hassets
  exact ⟨service, assets, manifests, base,
    { storage := ⟨es₁, fun e he => by simp [he], hstorage⟩
      listed := ⟨entries, by simp [hlisted], hentries⟩
      available := mapError_eq_ok_iff.1 havailable.symm
      read := ⟨es₅, fun e he => by simp [he], hmanifests⟩
      start := mapError_eq_ok_iff.1 hbase.symm
      items := mapError_eq_ok_iff.1 hitems.symm
      details := mapError_eq_ok_iff.1 hdetails.symm
      collection := mapError_eq_ok_iff.1 hcollection.symm
      count := rfl }⟩

/-- The manifests of a plan were read along its transcript. -/
theorem Planned.readAlong {p : Plan} {service : Storage} {base : String}
    (h : Planned config options es p service assets manifests base) :
    Manifest.ReadAlong es assets.manifests manifests := by
  obtain ⟨gs, hgs, hread⟩ := h.read
  exact (Manifest.readAll_runs hread).mono hgs

/-- The plan of an upload follows from what it found. -/
theorem plan_runs {p : Plan} (h : (plan config options).Runs es (.ok p)) :
    ∃ assets manifests lines, Found config options es assets manifests lines ∧
      p.items = numbered 0 lines ∧ p.count = lines.length ∧
      UInt64.ofNat p.count ≤ p.available := by
  obtain ⟨service, assets, manifests, base, hplanned⟩ := planned_of_runs h
  obtain ⟨lines, hlines, hitems⟩ := itemsFrom_ok hplanned.items
  have hread := hplanned.readAlong
  refine ⟨assets, manifests, lines, ⟨hplanned.listed, hread, base, hplanned.start, hlines⟩, hitems,
    ?_, ?_⟩
  · rw [hplanned.count, hlines.length_eq, List.length_zip, hread.length_eq, Nat.min_self]
  · rw [hplanned.count, hread.length_eq]
    exact Assets.checkCounts_ok hplanned.available

/-! ## Everything before the cluster is asked to change -/

/-- What an upload knows before it sends anything. -/
structure Survey where
  plan : Plan
  settings : Settings
  cache : Cache

/-- Reads and checks everything that an upload depends on. -/
def survey (payer : Address) (now : Int) (config : Config) (options : Options) :
    Script Survey := do
  let plan ← plan config options
  Deploy.checkCollection payer plan.collection
  let settings ← Settings.resolve config payer now
  let cache ← Cache.load options.place.folder options.place.env options.place.name true
  return ⟨plan, settings, cache⟩

theorem quiet_survey (payer : Address) (now : Int) (config : Config) (options : Options) :
    (survey payer now config options).Quiet := by
  refine (quiet_plan _ _).bind fun _ => ?_
  refine (Deploy.quiet_checkCollection _ _).bind fun _ => ?_
  refine (Settings.quiet_resolve _ _ _).bind fun _ => ?_
  exact (Cache.quiet_load _ _ _ _).bind fun _ => only_done _

/-- Settings hide the items if the configuration does. -/
theorem hiddenSettings_of_resolve {payer : Address} {now : Int} {settings : Settings}
    (h : (Settings.resolve config payer now).Runs es (.ok settings)) :
    settings.hiddenSettings.isSome = config.hiddenSettings.isSome := by
  have hconvert := Settings.hidden_of_resolve h
  cases hc : config.hiddenSettings with
  | none =>
    rw [hc] at hconvert
    rw [← Except.ok.inj hconvert]
    rfl
  | some s =>
    rw [hc] at hconvert
    obtain ⟨t, -, h⟩ := except_bind_eq_ok_iff.1 hconvert
    rw [← Except.ok.inj h]
    rfl

/-- The file of the record of an upload. -/
def Options.path (options : Options) : String := options.place.path

/-- What a survey knows follows from what was found and from the record. -/
structure Surveyed (config : Config) (options : Options) (es : List Event) (record : Content)
    (s : Survey) (assets : Assets) (manifests : List Manifest) (lines : List (String × String)) :
    Prop where
  found : Found config options es assets manifests lines
  items : s.plan.items = numbered 0 lines
  count : s.plan.count = lines.length
  available : UInt64.ofNat s.plan.count ≤ s.plan.available
  hidden : s.settings.hiddenSettings.isSome = config.hiddenSettings.isSome
  cache : Cache.ofContent options.path options.place.env options.place.name true record =
    .ok s.cache

theorem survey_runs {payer : Address} {now : Int} {s : Survey} {w w' : World}
    (h : (survey payer now config options).Runs es (.ok s)) (hw : w.Follows options.path es w') :
    ∃ assets manifests lines, Surveyed config options es w.record s assets manifests lines := by
  rw [survey] at h
  rcases hw.stages_of_only h (quiet_plan _ _) with ⟨_, ho, -⟩ | ⟨p, es₁, es₂, rfl, hplan, h₂, hw₂⟩
  · cases ho
  rcases hw₂.stages_of_only h₂ (Deploy.quiet_checkCollection _ _) with
    ⟨_, ho, -⟩ | ⟨_, es₃, es₄, rfl, -, h₃, hw₃⟩
  · cases ho
  rcases hw₃.stages_of_only h₃ (Settings.quiet_resolve _ _ _) with
    ⟨_, ho, -⟩ | ⟨settings, es₅, es₆, rfl, hsettings, h₄, hw₄⟩
  · cases ho
  rcases hw₄.stages h₄ with ⟨_, ho, -⟩ | ⟨c, es₇, es₈, w₁, rfl, hload, hw₅, hend, -⟩
  · cases ho
  cases hend
  obtain ⟨assets, manifests, lines, hfound, hitems, hcount, havailable⟩ := plan_runs hplan
  exact ⟨assets, manifests, lines,
    { found := hfound.mono fun e he => by simp [he]
      items := hitems
      count := hcount
      available := havailable
      hidden := hiddenSettings_of_resolve hsettings
      cache := Cache.load_runs hload hw₅ }⟩

end Upload

end CandyDrop
