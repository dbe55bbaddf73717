import CandyDrop.Proofs.Assets.Order
import CandyDrop.Proofs.Checks.Faults
import CandyDrop.Proofs.History.FirstRecord
import CandyDrop.Proofs.Script.Local

/-!
# What fails before anything is asked

A command checks what it can without the cluster before it turns to it. Each of these checks is
stated here for itself, by the fault that it finds in the configuration, the options or the disk,
whatever the others find (`Local.clusterFault?` and the definitions after it); the limits that it
goes by are written out (`Checks.creatorFaults` and the definitions around it). `Maker.faults` has the
checks in their order. If one of them finds a fault, the command ends with the first fault in this
order, and until then it has only looked at the folder of the collection (`Maker.ends_with_fault`).
-/

namespace CandyDrop

open Script

/-- What a command is given apart from the cluster. -/
structure Local where
  config : Config
  place : CachePlace
  choice : CollectionChoice
  disk : Disk

/-! ## The files of a collection -/

namespace Assets

/-- The paths of files that are named by a number, in ascending order. -/
def numbered (ps : List String) : List (UInt64 × String) :=
  (ps.filterMap fun p => (index p).toOption.map fun n => (n, p)).mergeSort indexLE

/-- The name of a file is no number. -/
def nameFault? (ps : List String) : Option Failure :=
  ps.findSome? fun p => faultOf .upload (index p)

/-- A number is missing between the first and the last one. -/
def gapFault? (ps : List String) : Option Failure :=
  match numbered ps with
  | [] => none
  | (first, p) :: rest => (gap? first ((first, p) :: rest)).map .upload

theorem index_of_mem_numbered {ps : List String} {x : UInt64 × String} (h : x ∈ numbered ps) :
    index x.2 = .ok x.1 := by
  rw [numbered, List.mem_mergeSort, List.mem_filterMap] at h
  obtain ⟨p, -, hp⟩ := h
  obtain ⟨n, hn, rfl⟩ := Option.map_eq_some_iff.1 hp
  cases hindex : index p with
  | ok m =>
    rw [hindex] at hn
    cases hn
    rfl
  | error e =>
    rw [hindex] at hn
    cases hn

end Assets

namespace Disk

/-- The files of a kind, as the folder is listed. -/
def files (disk : Disk) (folder : String) (kind : AssetKind) : List String :=
  Assets.ofKind kind (Assets.paths folder ((disk.listing folder).getD []))

/-- The manifests by their numbers, in ascending order. -/
def manifests (disk : Disk) (folder : String) : List (UInt64 × String) :=
  Assets.numbered (disk.files folder .manifest)

/-- The files of a collection. -/
def assets (disk : Disk) (folder : String) : Assets :=
  ⟨disk.files folder .image, disk.files folder .animation, (disk.manifests folder).map Prod.snd⟩

/-- The manifest in a file, if it is one within the limits. -/
def manifest? (disk : Disk) (path : String) : Option Manifest :=
  (Manifest.ofContent path (disk.content path)).toOption

/-- The manifest with the least number, which speaks for the collection. -/
def spokesman? (disk : Disk) (folder : String) : Option Manifest :=
  ((disk.manifests folder).head?).bind fun file => disk.manifest? file.2

end Disk

/-! ## Faults -/

namespace Local

variable (l : Local) (folder : String)

/-- The cluster of the record is unknown. -/
def clusterFault? : Option Failure :=
  if (Cluster.ofName? l.place.env).isNone then some (.config (.unknownCluster l.place.env)) else none

/-- The storage service cannot be used on the cluster of the record. -/
def storageFault? : Option Failure :=
  (Cluster.ofName? l.place.env).bind (Checks.serviceFault? .check l.config)

/-- The folder cannot be listed. -/
def folderFault? : Option Failure :=
  if (l.disk.listing folder).isNone then some (.upload (.invalidDirectory folder)) else none

/-- There are animations for a service that takes none, or not as many as manifests; or there are not
as many images as manifests, or more than items. -/
def countFault? : Option Failure :=
  let images := (l.disk.files folder .image).length
  let animations := (l.disk.files folder .animation).length
  let manifests := (l.disk.files folder .manifest).length
  firstFault?
    [faultIf (0 < animations ∧ Storage.ofName? (l.config.storage.getD "") = some .arweave)
        (.upload .animationsNotSupported),
      faultIf (0 < animations ∧ animations ≠ manifests)
        (.upload (.animationCount animations manifests)),
      faultIf (images ≠ manifests) (.upload (.imageCount images manifests)),
      l.config.number.bind fun n =>
        faultIf (n < UInt64.ofNat images) (.upload (.numberTooSmall n images))]

/-- There is no manifest, or one of them cannot be read or is not within the limits. -/
def manifestFault? : Option Failure :=
  if (l.disk.manifests folder).isEmpty then some (.upload .noManifests)
  else (l.disk.manifests folder).findSome? fun file =>
    Manifest.fault? file.2 (l.disk.content file.2)

/-- What the links start with is missing or blank. -/
def baseFault? : Option Failure := faultIf (IsLacking l.config.baseUri) (.upload .missingBaseUri)

/-- What the links start with, without slashes at the end. -/
def base : String := Text.trimEndOf '/' (l.config.baseUri.getD "")

/-- The name of an item has more than 32 bytes, or its link with the number of the manifest has more
than 200. -/
def lineFault? (file : UInt64 × String) : Option Failure :=
  (l.disk.manifest? file.2).bind fun manifest =>
    firstFault? [Checks.nameFault? .check manifest.name,
      Checks.urlFault? .check (l.base ++ "/" ++ file.1.toNat.repr)]

/-- The token of the collection is given and is no address. -/
def collectionFault? : Option Failure :=
  l.choice.mint.bind fun text =>
    faultIf (¬IsLacking (some text) ∧ (Address.ofText? (Text.trim text)).isNone = true)
      (.deploy (.invalidCollectionMint text))

/-- The number of items is missing. -/
def numberFault? : Option Failure :=
  if l.config.number.isNone then some (.deploy .missingNumber) else none

end Local

/-- The faults that a command can find before it turns to the cluster, in the order of its
checks. -/
def Maker.faults (l : Local) : Maker → List (Option Failure)
  | deployment =>
    detailFaults l.config.symbol l.config.sellerFeeBasisPoints l.config.creators ++
      [l.collectionFault?, l.numberFault?]
  | upload folder _ =>
    [l.clusterFault?, l.storageFault?, l.folderFault? folder,
      Assets.nameFault? (l.disk.files folder .manifest),
      Assets.gapFault? (l.disk.files folder .manifest), l.countFault? folder,
      l.manifestFault? folder, l.baseFault?, (l.disk.manifests folder).findSome? l.lineFault?] ++
    ((l.disk.spokesman? folder).elim [] fun m =>
      detailFaults m.symbol m.sellerFeeBasisPoints m.creators) ++
    [l.collectionFault?]

/-! ## The files in order -/

namespace Assets

variable {ps ms : List String} {is : List (UInt64 × String)} {disk : Disk} {folder : String}

theorem faultOf_indexed (ps : List String) : faultOf .upload (indexed ps) = nameFault? ps := by
  induction ps with
  | nil => rfl
  | cons p ps ih =>
    have hrest : ∀ n, index p = .ok n →
        faultOf .upload (indexed ps >>= fun rest => .ok ((n, p) :: rest)) = nameFault? ps :=
      fun n _ => (faultOf_map _).trans ih
    rw [indexed, nameFault?, findSome?_cons_eq_or]
    exact faultOf_bind hrest

theorem indexed_eq_ok (h : indexed ps = .ok is) :
    is = ps.filterMap (fun p => (index p).toOption.map fun n => (n, p)) ∧
      is.length = ps.length := by
  induction ps generalizing is with
  | nil =>
    cases h
    exact ⟨rfl, rfl⟩
  | cons p ps ih =>
    simp only [indexed, except_bind_eq_ok_iff] at h
    obtain ⟨n, hn, rest, hrest, h⟩ := h
    cases h
    obtain ⟨hsame, hlength⟩ := ih hrest
    refine ⟨?_, by rw [List.length_cons, List.length_cons, hlength]⟩
    rw [List.filterMap_cons, hn, hsame]
    rfl

/-- The manifests are in order unless a name is no number or a number is missing. -/
theorem faultOf_inOrder (ps : List String) :
    faultOf .upload (inOrder ps) = (nameFault? ps).or (gapFault? ps) := by
  rw [inOrder, ← faultOf_indexed]
  refine faultOf_bind fun is his => ?_
  rw [gapFault?, numbered, ← (indexed_eq_ok his).1]
  cases is.mergeSort indexLE with
  | nil => rfl
  | cons a rest =>
    obtain ⟨first, p⟩ := a
    dsimp only
    cases gap? first ((first, p) :: rest) <;> rfl

theorem inOrder_eq_ok (h : inOrder ps = .ok ms) :
    ms = (numbered ps).map Prod.snd ∧ (numbered ps).length = ps.length := by
  obtain ⟨is, his, -, rfl⟩ := inOrder_eq_ok_iff.1 h
  obtain ⟨hsame, hlength⟩ := indexed_eq_ok his
  rw [numbered, ← hsame, List.length_mergeSort, hlength]
  exact ⟨rfl, rfl⟩

theorem finds_warnAll (texts : List String) :
    (warnAll texts).Finds disk none fun _ => True := by
  induction texts with
  | nil => exact finds_done trivial
  | cons w ws ih => exact ⟨trivial, fun _ _ => ih⟩

end Assets

/-! ## What a command finds -/

namespace Local

variable {l : Local} {folder : String}

theorem finds_storage : (Upload.storage l.config l.place.env).Finds l.disk
    (l.clusterFault?.or l.storageFault?)
    fun storage => Storage.ofName? (l.config.storage.getD "") = some storage := by
  rw [Upload.storage, clusterFault?, storageFault?]
  cases Cluster.ofName? l.place.env with
  | none => exact rfl
  | some cluster =>
    rw [Option.bind_some, ← Checks.faultOf_storage]
    refine Finds.bind_of_none finds_ofExcept fun storage hstorage => ?_
    refine (Assets.finds_warnAll _).bind_of_none fun _ _ => finds_done ?_
    simp only [Checks.storage] at hstorage
    split at hstorage
    · cases hstorage
    · next s hs =>
      split at hstorage
      · cases hstorage
      · cases hstorage
        exact hs

theorem finds_ofFolder : (Assets.ofFolder folder).Finds l.disk
    ((l.folderFault? folder).or ((Assets.nameFault? (l.disk.files folder .manifest)).or
      (Assets.gapFault? (l.disk.files folder .manifest))))
    fun assets => assets = l.disk.assets folder ∧
      (l.disk.manifests folder).length = (l.disk.files folder .manifest).length := by
  rw [Assets.ofFolder, ← Assets.faultOf_inOrder]
  refine Finds.list_bind ?_
  unfold folderFault? Disk.assets Disk.manifests Disk.files
  cases l.disk.listing folder with
  | none => exact rfl
  | some entries =>
    refine (Assets.finds_warnAll _).bind fun _ _ _ => ?_
    have hfault : faultOf .upload (Assets.ofEntries folder entries) =
        faultOf .upload (Assets.inOrder (Assets.ofKind .manifest (Assets.paths folder entries))) :=
      faultOf_map _
    rw [Option.getD_some, ← hfault]
    refine finds_ofExcept.mono fun assets hassets => ?_
    obtain ⟨ms, hms, h⟩ := except_bind_eq_ok_iff.1 hassets
    cases h
    obtain ⟨rfl, hlength⟩ := Assets.inOrder_eq_ok hms
    exact ⟨rfl, hlength⟩

theorem faultOf_checkCounts {storage : Storage}
    (hstorage : Storage.ofName? (l.config.storage.getD "") = some storage)
    (hlength : (l.disk.manifests folder).length = (l.disk.files folder .manifest).length) :
    faultOf .upload ((l.disk.assets folder).checkCounts storage l.config.number) =
      l.countFault? folder := by
  simp only [countFault?, firstFault?_cons, firstFault?_nil, Option.or_none, hstorage,
    Assets.checkCounts, Disk.assets, List.length_map, hlength, ← Nat.pos_iff_ne_zero,
    Option.some.injEq]
  refine faultOf_ite fun _ => faultOf_ite fun _ => faultOf_ite fun _ => ?_
  cases l.config.number with
  | none => simp [faultOf]
  | some n => exact faultOf_guard

/-! ## Manifests -/

theorem finds_readEach (l : Local) (paths : List String) : (Manifest.readEach paths).Finds l.disk
    (paths.findSome? fun p => Manifest.fault? p (l.disk.content p))
    fun ms => paths.map l.disk.manifest? = ms.map some := by
  induction paths with
  | nil => exact finds_done rfl
  | cons p ps ih =>
    rw [Manifest.readEach, findSome?_cons_eq_or, ← Manifest.faultOf_ofContent]
    refine Finds.read_bind (finds_ofExcept.bind fun _ m hm => ?_)
    refine ih.bind_of_none fun ms hms => finds_done ?_
    rw [List.map_cons, List.map_cons, hms, Disk.manifest?, hm]
    rfl

theorem finds_readAll : (Manifest.readAll ((l.disk.manifests folder).map Prod.snd)).Finds l.disk
    (l.manifestFault? folder)
    fun ms => ms ≠ [] ∧
      (l.disk.manifests folder).map (fun x => l.disk.manifest? x.2) = ms.map some := by
  rw [Manifest.readAll, manifestFault?, List.isEmpty_map]
  split
  · exact rfl
  · next hne =>
    have hfinds := l.finds_readEach ((l.disk.manifests folder).map Prod.snd)
    rw [List.findSome?_map, List.map_map] at hfinds
    refine hfinds.mono fun ms hms => ⟨?_, hms⟩
    rintro rfl
    simp at hms
    simp [hms] at hne

/-! ## Items -/

theorem faultOf_itemsFrom {files : List (UInt64 × String)} {ms : List Manifest} {position : Nat}
    (hindex : ∀ x ∈ files, Assets.index x.2 = .ok x.1)
    (hms : files.map (fun x => l.disk.manifest? x.2) = ms.map some) :
    faultOf id (Upload.itemsFrom l.base position ((files.map Prod.snd).zip ms)) =
      files.findSome? l.lineFault? := by
  induction files generalizing ms position with
  | nil =>
    obtain rfl := List.map_eq_nil_iff.1 hms.symm
    rfl
  | cons x files ih =>
    cases ms with
    | nil => cases hms
    | cons m ms =>
      rw [List.map_cons, List.map_cons, List.cons.injEq] at hms
      have hrest : ∀ x ∈ files, Assets.index x.2 = .ok x.1 :=
        fun x hx => hindex x (List.mem_cons_of_mem _ hx)
      rw [findSome?_cons_eq_or, lineFault?, hms.1, Option.bind_some, firstFault?_cons,
        firstFault?_cons, firstFault?_nil, Option.or_none, Option.or_assoc, ← Checks.faultOf_name,
        ← Checks.faultOf_url, List.map_cons, List.zip_cons_cons, Upload.itemsFrom,
        hindex _ List.mem_cons_self]
      change faultOf id ((Checks.name m.name).mapError Failure.check >>= fun _ =>
        (Checks.url (l.base ++ "/" ++ x.1.toNat.repr)).mapError Failure.check >>= fun _ =>
        Upload.itemsFrom l.base (position + 1) ((files.map Prod.snd).zip ms) >>= fun rest =>
        .ok ((position.repr, ⟨m.name, l.base ++ "/" ++ x.1.toNat.repr, false⟩) :: rest)) = _
      refine faultOf_mapError_bind fun _ _ => faultOf_mapError_bind fun _ _ => ?_
      exact (faultOf_map _).trans (ih hrest hms.2)

/-! ## The whole plan -/

theorem faultOf_detailsOf {ms : List Manifest} (hne : ms ≠ [])
    (hms : (l.disk.manifests folder).map (fun x => l.disk.manifest? x.2) = ms.map some) :
    faultOf .check (Upload.detailsOf ms) =
      firstFault? ((l.disk.spokesman? folder).elim [] fun m =>
        detailFaults m.symbol m.sellerFeeBasisPoints m.creators) := by
  cases ms with
  | nil => exact absurd rfl hne
  | cons m ms =>
    have hfirst : l.disk.spokesman? folder = some m := by
      unfold Disk.spokesman?
      cases hfiles : l.disk.manifests folder with
      | nil => simp [hfiles] at hms
      | cons x files =>
        rw [hfiles, List.map_cons, List.map_cons, List.cons.injEq] at hms
        exact hms.1
    rw [hfirst]
    exact CollectionDetails.faultOf_check _ _ _

theorem faultOf_baseUri : faultOf id (Upload.baseUri l.config) = l.baseFault? := by
  unfold Upload.baseUri baseFault?
  cases l.config.baseUri with
  | none => rfl
  | some base =>
    rw [faultIf_congr isLacking_some_iff]
    exact faultOf_guard

theorem faultOf_parse : faultOf .deploy (CollectionMint.parse l.choice.mint) = l.collectionFault? := by
  unfold CollectionMint.parse collectionFault?
  cases l.choice.mint with
  | none => rfl
  | some text =>
    rw [Option.bind_some, faultIf_congr (and_congr_left' (not_congr isLacking_some_iff))]
    cases hblank : Text.blank text <;> cases haddress : Address.ofText? (Text.trim text) <;>
      simp [faultOf, faultIf, hblank, haddress]

theorem faultOf_plan : faultOf id (Deploy.plan l.config l.choice) =
    firstFault? (Maker.deployment.faults l) := by
  simp only [Maker.faults, firstFault?_append, firstFault?_cons, firstFault?_nil, Option.or_none,
    ← CollectionDetails.faultOf_check, ← faultOf_parse]
  refine faultOf_mapError_bind fun _ _ => faultOf_mapError_bind fun _ _ => ?_
  unfold numberFault?
  cases l.config.number <;> rfl

theorem base_of_baseUri {base : String} (h : Upload.baseUri l.config = .ok base) :
    l.base = Text.trimEndOf '/' base := by
  rw [Local.base]
  unfold Upload.baseUri at h
  split at h
  · next b hb =>
    split at h
    · cases h
    · cases h
      rw [hb, Option.getD_some]
  · cases h

theorem finds_plan {rateLimit : Nat} :
    (Upload.plan l.config ⟨folder, l.place, l.choice, rateLimit⟩).Finds l.disk
      (firstFault? ((Maker.upload folder rateLimit).faults l)) fun _ => True := by
  have hfaults : firstFault? ((Maker.upload folder rateLimit).faults l) =
      (l.clusterFault?.or l.storageFault?).or
        (((l.folderFault? folder).or ((Assets.nameFault? (l.disk.files folder .manifest)).or
          (Assets.gapFault? (l.disk.files folder .manifest)))).or
        ((l.countFault? folder).or ((l.manifestFault? folder).or (l.baseFault?.or
          (((l.disk.manifests folder).findSome? l.lineFault?).or
          ((firstFault? ((l.disk.spokesman? folder).elim [] fun m =>
            detailFaults m.symbol m.sellerFeeBasisPoints m.creators)).or l.collectionFault?)))))) := by
    simp only [Maker.faults, firstFault?_append, firstFault?_cons, firstFault?_nil,
      Option.or_none, Option.or_assoc]
  rw [hfaults]
  refine finds_storage.bind fun _ storage hstorage => Finds.say_bind ?_
  refine finds_ofFolder.bind fun _ assets ⟨hassets, hlength⟩ => ?_
  subst hassets
  rw [← faultOf_checkCounts hstorage hlength]
  refine finds_ofExcept.bind fun _ available _ => ?_
  refine finds_readAll.bind fun _ ms ⟨hne, hms⟩ => ?_
  rw [← faultOf_baseUri]
  refine finds_ofExcept.bind fun _ base hbase => ?_
  have hitems : faultOf id (Upload.items base ((l.disk.manifests folder).map Prod.snd) ms) =
      (l.disk.manifests folder).findSome? l.lineFault? := by
    rw [Upload.items, ← base_of_baseUri hbase]
    exact faultOf_itemsFrom (fun x hx => Assets.index_of_mem_numbered hx) hms
  rw [← hitems, ← faultOf_detailsOf hne hms, ← faultOf_parse]
  refine finds_ofExcept.bind fun _ items _ => ?_
  refine finds_ofExcept.bind fun _ details _ => ?_
  exact finds_ofExcept.bind_of_none fun _ _ => finds_done trivial

end Local

/-! ## Both commands -/

/-- The fault in the files of a collection, if it is one that was found. -/
def Failure.uploadFault? : Option Failure → Option UploadFault
  | some (.upload fault) => some fault
  | _ => none

theorem Failure.of_uploadFault? {failure? : Option Failure} {fault : UploadFault}
    (h : uploadFault? failure? = some fault) : failure? = some (.upload fault) := by
  unfold uploadFault? at h
  split at h
  · cases h
    rfl
  · cases h

namespace Maker

variable {l : Local} {fault : Failure} {payer : Address} {now : Int}

/-- A command with a fault finds it, and nothing else happens. -/
theorem finds_script (maker : Maker) (hfault : firstFault? (maker.faults l) = some fault) :
    (maker.script payer now l.config l.place l.choice).Finds l.disk (some fault)
      fun _ => True := by
  cases maker with
  | deployment =>
    have hplan : (Script.ofExcept id (Deploy.plan l.config l.choice)).Finds l.disk (some fault)
        fun a => Deploy.plan l.config l.choice = .ok a := by
      rw [← hfault, ← Local.faultOf_plan]
      exact finds_ofExcept
    exact hplan.bind_of_fault
  | upload folder rateLimit =>
    have hplan : (Upload.plan l.config ⟨folder, l.place, l.choice, rateLimit⟩).Finds l.disk
        (some fault) fun _ => True := by
      rw [← hfault]
      exact Local.finds_plan
    exact hplan.bind_of_fault

/-- **Local faults are free.** If one of the checks that need no cluster finds a fault, the command
ends with the first one in their order, whatever the cluster would have answered. Until then it has
asked for nothing but the folder of the collection and its manifests; so the world is as it was, and
with it every record, wherever it is kept. -/
theorem ends_with_fault (maker : Maker) (hfault : firstFault? (maker.faults l) = some fault) :
    (∃ es, (maker.script payer now l.config l.place l.choice).Runs es (.error fault) ∧
      ∀ e ∈ es, l.disk.Shows e) ∧
    ∀ es o, (maker.script payer now l.config l.place l.choice).Runs es o →
      (∀ e ∈ es, l.disk.Shows e) →
        o = .error fault ∧ (∀ e ∈ es, e.request.IsLocal) ∧
          ∀ path w w', World.Follows path w es w' → w' = w := by
  have hfinds : (maker.script payer now l.config l.place l.choice).Finds l.disk (some fault)
      fun _ => True := finds_script maker hfault
  constructor
  · obtain ⟨es, o, hrun, hes⟩ := hfinds.exists_runs
    obtain ⟨rfl, -⟩ := hfinds.of_runs hrun hes
    exact ⟨es, hrun, hes⟩
  · intro es o hrun hes
    obtain ⟨ho, hlocal⟩ := hfinds.of_runs hrun hes
    exact ⟨ho, hlocal, fun path w w' hw => hw.eq_of_quiet fun e he => (hlocal e he).isQuiet⟩

/-- An upload of one item without a base for links, and with a text for the collection that is no
address. -/
def twiceAtFault : Local where
  config := { Sample.config with baseUri := none }
  place := Sample.place
  choice := ⟨some "x", true⟩
  disk :=
    { listing := fun _ => some [⟨"0.png", true⟩, ⟨"0.json", true⟩]
      content := fun _ => .bytes (Sample.manifest "A") }

/-- Of two faults the upload ends with the one that is checked first. -/
theorem ends_with_fault_twice :
    twiceAtFault.collectionFault? = some (.deploy (.invalidCollectionMint "x")) ∧
    firstFault? ((upload "assets" 0).faults twiceAtFault) = some (.upload .missingBaseUri) ∧
    ∃ es, ((upload "assets" 0).script Sample.payer 0 twiceAtFault.config twiceAtFault.place
      twiceAtFault.choice).Runs es (.error (.upload .missingBaseUri)) ∧
        ∀ e ∈ es, twiceAtFault.disk.Shows e := by
  have hparse : CollectionMint.parse (some "x") = .error (.invalidCollectionMint "x") := by
    decide +kernel
  have hcollection : twiceAtFault.collectionFault? =
      some (.deploy (.invalidCollectionMint "x")) := by
    rw [← Local.faultOf_parse]
    exact congrArg (faultOf .deploy) hparse
  have hfirst : firstFault? ((upload "assets" 0).faults twiceAtFault) =
      some (.upload .missingBaseUri) := Failure.of_uploadFault? (by decide +kernel)
  exact ⟨hcollection, hfirst, (ends_with_fault (upload "assets" 0) hfirst).1⟩

end Maker

end CandyDrop
