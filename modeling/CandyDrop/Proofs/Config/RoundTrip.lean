import CandyDrop.Address.Known
import CandyDrop.Config.File
import CandyDrop.Proofs.Address.RoundTrip
import CandyDrop.Proofs.Json.Kept

/-!
# A configuration that is written is read back

Each part of a configuration is read back from the value that it is written as (`ofJson?_toJson`),
and what is read of a value is also read of what is kept of it (`readsKept_ofJson?`). So a
configuration comes back from its JSON form, and from the same with the members of all objects in
ascending order (`Config.read_written`). A price has to be finite for that: there are no numbers for
the other doubles.
-/

namespace CandyDrop

/-! ## Parts of a configuration -/

open Json (Fields ReadsKept record_written bind_written)

namespace Address

theorem ofJson?_toJson (a : Address) : ofJson? a.toJson = some a := a.ofText?_text

theorem readsKept_ofJson? : ReadsKept ofJson? := ReadsKept.bind .toText? ofText?

end Address

namespace Machine.Gatekeeper

theorem ofJson?_toJson (g : Gatekeeper) : ofJson? g.toJson = some g := by
  refine record_written rfl ?_
  exact bind_written (Fields.required_written rfl g.network.ofJson?_toJson) rfl

theorem readsKept_ofJson? : ReadsKept ofJson? := by
  refine .record (.bind (.required Address.readsKept_ofJson? (by decide)) fun _ => ?_)
  exact .bind (.defaulted .toBool? (by decide)) fun _ => .pure _

end Machine.Gatekeeper

namespace Config

theorem EndKind.ofJson?_toJson (k : EndKind) : ofJson? k.toJson = some k := record_written rfl rfl

theorem EndKind.readsKept_ofJson? : ReadsKept ofJson? := by
  refine .record (.bind (.defaulted .toBool? (by decide)) fun _ => ?_)
  exact .bind (.defaulted .toBool? (by decide)) fun _ => .pure _

theorem EndSettings.ofJson?_toJson (e : EndSettings) : ofJson? e.toJson = some e := by
  refine record_written rfl ?_
  refine bind_written (Fields.required_written rfl e.kind.ofJson?_toJson) ?_
  refine bind_written (x := ⟨e.value, e.isKept_value⟩) (Fields.required_written rfl ?_) rfl
  split
  · next v hv =>
    rw [Json.keep?_of_isKept e.isKept_value] at hv
    cases hv
    rfl
  · next hnone =>
    rw [Json.keep?_of_isKept e.isKept_value] at hnone
    cases hnone

theorem EndSettings.readsKept_ofJson? : ReadsKept ofJson? := by
  refine .record (.bind (.required EndKind.readsKept_ofJson? (by decide)) fun _ => ?_)
  refine .bind (.required ?_ (by decide)) fun _ => .pure _
  intro j v x hv hx
  dsimp only at hx ⊢
  split at hx
  · next u hu =>
    split
    · next u' hu' =>
      rw [hv] at hu
      cases hu
      rw [Json.keep?_of_keep? hv] at hu'
      cases hu'
      exact hx
    · next hnone =>
      rw [Json.keep?_of_keep? hv] at hnone
      cases hnone
  · cases hx

theorem EndSettings.isSome_keep?_toJson (e : EndSettings) : e.toJson.keep?.isSome = true := by
  refine Json.isSome_keep?_object ?_
  rw [List.forall_mem_cons, List.forall_mem_singleton, Json.keep?_of_isKept e.isKept_value]
  exact ⟨rfl, rfl⟩

theorem WhitelistKind.ofJson?_toJson (k : WhitelistKind) : ofJson? k.toJson = some k :=
  record_written rfl rfl

theorem WhitelistKind.readsKept_ofJson? : ReadsKept ofJson? := by
  refine .record (.bind (.defaulted .toBool? (by decide)) fun _ => ?_)
  exact .bind (.defaulted .toBool? (by decide)) fun _ => .pure _

theorem Whitelist.ofJson?_toJson (w : Whitelist)
    (hdiscount : ∀ p ∈ w.discountPrice, p.isFinite = true) : ofJson? w.toJson = some w := by
  refine record_written rfl ?_
  refine bind_written (Fields.required_written rfl w.mode.ofJson?_toJson) ?_
  refine bind_written (Fields.required_written rfl w.mint.ofJson?_toJson) ?_
  refine bind_written (Fields.defaulted_written rfl rfl) ?_
  exact bind_written (Fields.optional_written rfl
    (fun p hp => Json.toReal?_ofReal (hdiscount p hp)) rfl) rfl

theorem Whitelist.readsKept_ofJson? : ReadsKept ofJson? := by
  refine .record (.bind (.required WhitelistKind.readsKept_ofJson? (by decide)) fun _ => ?_)
  refine .bind (.required Address.readsKept_ofJson? (by decide)) fun _ => ?_
  refine .bind (.defaulted .toBool? (by decide)) fun _ => ?_
  exact .bind (.optional .toReal? (by decide)) fun _ => .pure _

theorem Whitelist.isSome_keep?_toJson (w : Whitelist) : w.toJson.keep?.isSome = true := by
  refine Json.isSome_keep?_object ?_
  rw [List.forall_mem_cons, List.forall_mem_cons, List.forall_mem_cons, List.forall_mem_singleton]
  exact ⟨rfl, rfl, rfl, Json.isSome_keep?_ofOption fun p _ => Json.isSome_keep?_ofReal p⟩

theorem HiddenSettings.ofJson?_toJson (h : HiddenSettings) : ofJson? h.toJson = some h :=
  record_written rfl rfl

theorem HiddenSettings.readsKept_ofJson? : ReadsKept ofJson? := by
  refine .record (.bind (.required .toText? (by decide)) fun _ => ?_)
  refine .bind (.required .toText? (by decide)) fun _ => ?_
  exact .bind (.required .toText? (by decide)) fun _ => .pure _

theorem Creator.ofJson?_toJson (c : Creator) : ofJson? c.toJson = some c := by
  refine record_written rfl ?_
  refine bind_written (Fields.optional_text_written rfl) ?_
  exact bind_written (Fields.defaulted_written rfl (Json.toUInt8?_ofNat c.share)) rfl

theorem Creator.readsKept_ofJson? : ReadsKept ofJson? := by
  refine .record (.bind (.optional .toText? (by decide)) fun _ => ?_)
  exact .bind (.defaulted (.bind .toInt? _) (by decide)) fun _ => .pure _

theorem Creator.isSome_keep?_toJson (c : Creator) : c.toJson.keep?.isSome = true := by
  refine Json.isSome_keep?_object ?_
  rw [List.forall_mem_cons, List.forall_mem_singleton]
  exact ⟨Json.isSome_keep?_ofOption fun _ _ => rfl,
    Json.isSome_keep?_ofNat (Nat.lt_trans c.share.toNat_lt (by decide))⟩

/-! ## The whole configuration -/

variable {c : Config}

theorem ofJson?_toJson (hprice : c.price.isFinite = true)
    (hdiscount : ∀ w ∈ c.whitelist, ∀ p ∈ w.discountPrice, p.isFinite = true) :
    ofJson? c.toJson = some c := by
  refine record_written rfl ?_
  refine bind_written (Fields.defaulted_written rfl (Json.toReal?_ofReal hprice)) ?_
  refine bind_written (Fields.optional_written rfl (fun n _ => Json.toUInt64?_ofNat n) rfl) ?_
  refine bind_written (Fields.optional_written rfl (fun g _ => g.ofJson?_toJson) rfl) ?_
  refine bind_written (Fields.optional_written rfl (fun a _ => a.ofJson?_toJson) rfl) ?_
  refine bind_written (Fields.optional_written rfl (fun a _ => a.ofJson?_toJson) rfl) ?_
  refine bind_written (Fields.optional_written rfl (fun a _ => a.ofJson?_toJson) rfl) ?_
  refine bind_written (Fields.optional_text_written rfl) ?_
  refine bind_written (Fields.optional_written rfl (fun e _ => e.ofJson?_toJson) rfl) ?_
  refine bind_written
    (Fields.optional_written rfl (fun w hw => w.ofJson?_toJson (hdiscount w hw)) rfl) ?_
  refine bind_written (Fields.optional_written rfl (fun h _ => h.ofJson?_toJson) rfl) ?_
  -- the storage service and what it asks for
  refine bind_written (Fields.optional_text_written rfl) ?_
  refine bind_written (Fields.optional_text_written rfl) ?_
  refine bind_written (Fields.optional_text_written rfl) ?_
  refine bind_written (Fields.optional_text_written rfl) ?_
  refine bind_written (Fields.optional_text_written rfl) ?_
  refine bind_written (Fields.optional_text_written rfl) ?_
  refine bind_written (Fields.optional_text_written rfl) ?_
  refine bind_written (Fields.optional_text_written rfl) ?_
  refine bind_written (Fields.defaulted_written rfl rfl) ?_
  refine bind_written (Fields.defaulted_written rfl rfl) ?_
  refine bind_written (Fields.optional_written rfl (fun n _ => Json.toUInt64?_ofNat n) rfl) ?_
  refine bind_written (Fields.optional_text_written rfl) ?_
  refine bind_written (Fields.defaulted_written rfl rfl) ?_
  refine bind_written
    (Fields.defaulted_written rfl (Json.toUInt16?_ofNat c.sellerFeeBasisPoints)) ?_
  refine bind_written
    (Fields.defaulted_written rfl (Json.toList?_map Creator.ofJson?_toJson c.creators)) ?_
  exact bind_written (Fields.optional_text_written rfl) rfl

theorem readsKept_ofJson? : ReadsKept ofJson? := by
  have htext : ∀ name ∈ fieldNames,
      Fields.ReadsKept fieldNames fun fs => fs.optional name Json.toText? :=
    fun _ => .optional .toText?
  have hnatural : ∀ name ∈ fieldNames,
      Fields.ReadsKept fieldNames fun fs => fs.optional name Json.toUInt64? :=
    fun _ => .optional (.bind .toInt? _)
  have haddress : ∀ name ∈ fieldNames,
      Fields.ReadsKept fieldNames fun fs => fs.optional name Address.ofJson? :=
    fun _ => .optional Address.readsKept_ofJson?
  have hflag : ∀ name ∈ fieldNames,
      Fields.ReadsKept fieldNames fun fs => fs.defaulted name false Json.toBool? :=
    fun _ => .defaulted .toBool?
  refine .record (.bind (.defaulted .toReal? (by decide)) fun price => ?_)
  refine .bind (hnatural _ (by decide)) fun number => ?_
  refine .bind (.optional Machine.Gatekeeper.readsKept_ofJson? (by decide)) fun gatekeeper => ?_
  refine .bind (haddress _ (by decide)) fun solTreasuryAccount => ?_
  refine .bind (haddress _ (by decide)) fun splTokenAccount => ?_
  refine .bind (haddress _ (by decide)) fun splToken => ?_
  refine .bind (htext _ (by decide)) fun goLiveDate => ?_
  refine .bind (.optional EndSettings.readsKept_ofJson? (by decide)) fun endSettings => ?_
  refine .bind (.optional Whitelist.readsKept_ofJson? (by decide)) fun whitelist => ?_
  refine .bind (.optional HiddenSettings.readsKept_ofJson? (by decide)) fun hiddenSettings => ?_
  refine .bind (htext _ (by decide)) fun storage => ?_
  refine .bind (htext _ (by decide)) fun ipfsInfuraProjectId => ?_
  refine .bind (htext _ (by decide)) fun ipfsInfuraSecret => ?_
  refine .bind (htext _ (by decide)) fun nftStorageKey => ?_
  refine .bind (htext _ (by decide)) fun pinataJwt => ?_
  refine .bind (htext _ (by decide)) fun pinataGateway => ?_
  refine .bind (htext _ (by decide)) fun awsS3Bucket => ?_
  refine .bind (htext _ (by decide)) fun arweaveJwk => ?_
  refine .bind (hflag _ (by decide)) fun noRetainAuthority => ?_
  refine .bind (hflag _ (by decide)) fun noMutable => ?_
  refine .bind (hnatural _ (by decide)) fun batchSize => ?_
  refine .bind (htext _ (by decide)) fun uuid => ?_
  refine .bind (.defaulted .toText? (by decide)) fun symbol => ?_
  refine .bind (.defaulted (.bind .toInt? _) (by decide)) fun sellerFeeBasisPoints => ?_
  refine .bind (.defaulted (.toList? Creator.readsKept_ofJson?) (by decide)) fun creators => ?_
  exact .bind (htext _ (by decide)) fun baseUri => .pure _

theorem isSome_keep?_toJson (c : Config) : c.toJson.keep?.isSome = true := by
  have htext : ∀ o : Option String, (Json.ofOption Json.text o).keep?.isSome = true :=
    fun _ => Json.isSome_keep?_ofOption fun _ _ => rfl
  have hnatural : ∀ o : Option UInt64,
      (Json.ofOption (fun n : UInt64 => Json.ofNat n.toNat) o).keep?.isSome = true :=
    fun _ => Json.isSome_keep?_ofOption fun n _ => Json.isSome_keep?_ofNat n.toNat_lt
  have haddress : ∀ o : Option Address, (Json.ofOption Address.toJson o).keep?.isSome = true :=
    fun _ => Json.isSome_keep?_ofOption fun _ _ => rfl
  have hgatekeeper : (Json.ofOption Machine.Gatekeeper.toJson c.gatekeeper).keep?.isSome = true :=
    Json.isSome_keep?_ofOption fun _ _ => rfl
  have hendSettings : (Json.ofOption EndSettings.toJson c.endSettings).keep?.isSome = true :=
    Json.isSome_keep?_ofOption fun e _ => e.isSome_keep?_toJson
  have hwhitelist : (Json.ofOption Whitelist.toJson c.whitelist).keep?.isSome = true :=
    Json.isSome_keep?_ofOption fun w _ => w.isSome_keep?_toJson
  have hhidden : (Json.ofOption HiddenSettings.toJson c.hiddenSettings).keep?.isSome = true :=
    Json.isSome_keep?_ofOption fun _ _ => rfl
  have hfee : (Json.ofNat c.sellerFeeBasisPoints.toNat).keep?.isSome = true :=
    Json.isSome_keep?_ofNat (Nat.lt_trans c.sellerFeeBasisPoints.toNat_lt (by decide))
  have hcreators : (Json.array (c.creators.map Creator.toJson)).keep?.isSome = true :=
    Json.isSome_keep?_array (List.forall_mem_map.2 fun k _ => k.isSome_keep?_toJson)
  refine Json.isSome_keep?_object ?_
  simp only [List.forall_mem_cons, List.not_mem_nil, false_implies, implies_true, and_true]
  exact ⟨Json.isSome_keep?_ofReal _, hnatural _, hgatekeeper, haddress _, haddress _, haddress _,
    htext _, hendSettings, hwhitelist, hhidden, htext _, htext _, htext _, htext _, htext _, htext _,
    htext _, htext _, rfl, rfl, hnatural _, htext _, rfl, hfee, hcreators, htext _⟩

/-- **A configuration that is written is read back.** Let its prices be finite. Then it is read from
the value that it is written as, member by member in the order of the fields; and this value can be
kept, with the members of its objects in ascending order, and the same configuration is read from
what is kept of it. -/
theorem read_written (c : Config) (hprice : c.price.isFinite = true)
    (hdiscount : ∀ w ∈ c.whitelist, ∀ p ∈ w.discountPrice, p.isFinite = true) :
    ofJson? c.toJson = some c ∧ ∃ kept, c.toJson.keep? = some kept ∧ ofJson? kept = some c := by
  have hread := ofJson?_toJson hprice hdiscount
  obtain ⟨kept, hkept⟩ := Option.isSome_iff_exists.1 c.isSome_keep?_toJson
  exact ⟨hread, kept, hkept, readsKept_ofJson? hkept hread⟩

/-- A configuration with a value for every part that has parts of its own. -/
def detailed : Config :=
  { blank with
    price := Binary64.ofNat 2
    number := some 0xFFFFFFFFFFFFFFFF
    gatekeeper := some ⟨.tokenProgram, true⟩
    solTreasuryAccount := some .systemProgram
    endSettings := some
      ⟨⟨true, false⟩, .array [.null, .object [("a", .bool true), ("b", .number (.integer (-1)))]], rfl⟩
    whitelist := some ⟨⟨false, true⟩, .systemProgram, true, some (Binary64.ofNat 1)⟩
    hiddenSettings := some ⟨"n", "u", "h"⟩
    creators := [⟨some "c", 60⟩, ⟨none, 40⟩] }

/-- What is written starts with the price, and what is kept of it with the first name of all. -/
theorem read_written_detailed :
    ofJson? detailed.toJson = some detailed ∧
      ∃ members, detailed.toJson.keep? = some (.object members) ∧
        members.head?.map Prod.fst = some "arweaveJwk" ∧
        ofJson? (.object members) = some detailed := by
  have hdiscount : ∀ w ∈ detailed.whitelist, ∀ p ∈ w.discountPrice, p.isFinite = true := by
    rintro _ ⟨⟩ _ ⟨⟩
    decide
  obtain ⟨hread, kept, hkept, hback⟩ := read_written detailed (by decide) hdiscount
  have hobject := hkept
  rw [toJson, Json.keep?, Option.map_eq_some_iff] at hobject
  obtain ⟨members, hmembers, rfl⟩ := hobject
  have hfirst := congrArg (Option.map fun ms => ms.head?.map Prod.fst) hmembers
  refine ⟨hread, members, hkept, Option.some.inj (hfirst.symm.trans ?_), hback⟩
  decide +kernel

end Config

end CandyDrop
