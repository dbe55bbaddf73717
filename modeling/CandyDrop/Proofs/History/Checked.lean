import CandyDrop.Proofs.Deploy.Collection
import CandyDrop.Proofs.Deploy.Settings
import CandyDrop.Proofs.History.NoTrace
import CandyDrop.Proofs.Script.Sends
import CandyDrop.Proofs.Upload.Plan

/-!
# What is checked before anything is sent

A deployment and an upload send no transaction before they have a plan, have checked the collection
and have resolved the settings (`Maker.Checked`). The first transaction that they can send creates
their machine from this plan and these settings; all others are sent for a machine that is there
(`Maker.run_sent`).
-/

namespace CandyDrop

open Script

section

variable {α : Type} {payer : Address} {now : Int} {config : Config} {place : CachePlace}
  {choice : CollectionChoice} {before after es fs : List Event} {e : Event} {t : Transaction}
  {T : Transaction → Prop}

theorem Request.Sends.of_sent {r : Request} (h : r.Sends T) (ht : r.sent? = some t) : T t := by
  cases r with
  | submit u =>
    cases ht
    exact h
  | launch u => exact h t ht
  | _ => cases ht

theorem Script.Runs.of_onlySends {s : Script α} {o : Except Failure α}
    (h : s.Runs (before ++ e :: after) o) (hs : s.OnlySends T) (ht : e.request.sent? = some t) :
    T t :=
  (h.forall_request hs e (by simp)).of_sent ht

/-! ## The two commands -/

/-- A deployment plans what its configuration says. -/
theorem Deploy.plan_eq_ok_iff {p : Plan} : plan config choice = .ok p ↔
    CollectionDetails.check config.symbol config.sellerFeeBasisPoints config.creators =
        .ok p.details ∧
      CollectionMint.parse choice.mint = .ok p.collection ∧ config.number = some p.items := by
  simp only [plan, except_bind_eq_ok_iff, mapError_eq_ok_iff]
  constructor
  · rintro ⟨details, hdetails, collection, hcollection, h⟩
    split at h
    · next items hitems =>
      cases h
      exact ⟨hdetails, hcollection, hitems⟩
    · cases h
  · rintro ⟨hdetails, hcollection, hitems⟩
    rw [hitems]
    exact ⟨_, hdetails, _, hcollection, rfl⟩

namespace Maker

/-- What a command plans along a transcript. A deployment needs nothing but its configuration. -/
def Plans (config : Config) (place : CachePlace) (choice : CollectionChoice) (es : List Event)
    (plan : Deploy.Plan) : Maker → Prop
  | deployment => Deploy.plan config choice = .ok plan
  | upload directory rateLimit => ∃ p : Upload.Plan,
      (Upload.plan config ⟨directory, place, choice, rateLimit⟩).DoneIn p es ∧
        plan = ⟨p.details, p.collection, p.available⟩

/-- A command has its plan and its settings, and has found the collection right. -/
structure Checked (maker : Maker) (payer : Address) (now : Int) (config : Config)
    (place : CachePlace) (choice : CollectionChoice) (es : List Event) (plan : Deploy.Plan)
    (settings : Settings) : Prop where
  plans : maker.Plans config place choice es plan
  collection : (Deploy.checkCollection payer plan.collection).DoneIn () es
  settings : (Settings.resolve config payer now).DoneIn settings es

variable {maker : Maker} {plan : Deploy.Plan} {settings : Settings}

/-- The collection that is checked is the one that was asked for. -/
theorem Plans.parse (h : maker.Plans config place choice es plan) :
    CollectionMint.parse choice.mint = .ok plan.collection := by
  cases maker with
  | deployment => exact (Deploy.plan_eq_ok_iff.1 h).2.1
  | upload directory rateLimit =>
    obtain ⟨p, ⟨gs, -, hrun⟩, rfl⟩ := h
    exact Upload.collection_of_plan hrun

/-- The mint that is asked for, if there is one, has passed its check. -/
theorem Checked.verified (h : maker.Checked payer now config place choice es plan settings) :
    ∀ mint ∈ plan.collection, (CollectionMint.check payer mint).DoneIn () es := by
  intro mint hmint
  have hdone := h.collection
  rwa [Option.mem_def.1 hmint] at hdone

end Maker

/-- Two checks that both commands make come before what is sent afterwards. -/
theorem checks_of_sent {collection : Option Address} {f : Settings → Script α}
    {o : Except Failure α}
    (h : (Deploy.checkCollection payer collection >>= fun _ =>
      Settings.resolve config payer now >>= f).Runs (before ++ e :: after) o)
    (ht : e.request.sent? = some t) :
    ∃ settings es₁ es₂, before = es₁ ++ es₂ ∧
      (Deploy.checkCollection payer collection).DoneIn () es₁ ∧
      (Settings.resolve config payer now).DoneIn settings es₁ ∧
      (f settings).Runs (es₂ ++ e :: after) o := by
  obtain ⟨_, es₁, es₂, rfl, hcheck, h₁⟩ := h.split_sent (Deploy.quiet_checkCollection _ _) ht
  obtain ⟨settings, es₃, es₄, rfl, hsettings, h₂⟩ :=
    h₁.split_sent (Settings.quiet_resolve _ _ _) ht
  refine ⟨settings, es₁ ++ es₃, es₄, (List.append_assoc ..).symm, ?_, ?_, h₂⟩
  · exact hcheck.doneIn.mono ⟨[], es₃, rfl⟩
  · exact hsettings.doneIn.mono ⟨es₁, [], List.append_nil _⟩

theorem Deploy.run_sent {o : Except Failure Address}
    (h : (run payer now config place choice).Runs (before ++ e :: after) o)
    (ht : e.request.sent? = some t) :
    ∃ plan settings es₁ es₂, before = es₁ ++ es₂ ∧
      Maker.deployment.Checked payer now config place choice es₁ plan settings ∧
      (t.IsFurther payer ∨ ∃ after' o',
        (Machine.create payer settings plan.details plan.items).Runs (es₂ ++ e :: after') o') := by
  have hquiet : (Script.ofExcept id (plan config choice)).Only Request.IsQuiet fun _ => True :=
    only_ofExcept fun _ _ => trivial
  obtain ⟨p, es₁, es₂, rfl, hplan, h₁⟩ := h.split_sent hquiet ht
  obtain ⟨rfl, ho⟩ := runs_ofExcept_iff.1 hplan
  obtain ⟨settings, es₃, es₄, rfl, hcheck, hsettings, h₂⟩ := checks_of_sent h₁ ht
  obtain ⟨_, es₅, es₆, rfl, -, h₃⟩ := h₂.split_sent (quiet_say _) ht
  have hchecked : Maker.deployment.Checked payer now config place choice (es₃ ++ es₅) p settings :=
    { plans := mapError_eq_ok_iff.1 ho.symm
      collection := hcheck.mono ⟨[], es₅, rfl⟩
      settings := hsettings.mono ⟨[], es₅, rfl⟩ }
  rcases h₃.split_bind with ⟨after', o', -, hcreate⟩ | ⟨machine, es₇, es₈, rfl, -, hrest⟩
  · exact ⟨p, settings, es₃ ++ es₅, es₆, by simp, hchecked, .inr ⟨after', o', hcreate⟩⟩
  · have hfurther : t.IsFurther payer := hrest.of_onlySends (only_recordAndSet ..) ht
    exact ⟨p, settings, es₃ ++ es₅, es₇ ++ es₈, by simp, hchecked, .inl hfurther⟩

namespace Upload

/-- A transaction for the machine of an upload creates it. -/
theorem machine_sent {settings : Settings} {p : Plan} {c : Cache}
    {o : Except Failure (Address × Cache)}
    (h : (machine payer settings p c).Runs (before ++ e :: after) o)
    (ht : e.request.sent? = some t) :
    ∃ after' o', (Machine.create payer settings p.details p.available).Runs
      (before ++ e :: after') o' := by
  have hquiet : (Script.ofExcept Failure.cache c.machine).Quiet := only_ofExcept fun _ _ => id
  obtain ⟨recorded, es₁, es₂, rfl, hread, h₁⟩ := h.split_sent hquiet ht
  obtain ⟨rfl, -⟩ := runs_ofExcept_iff.1 hread
  cases recorded with
  | some machine =>
    obtain ⟨_, es₃, es₄, -, -, h₂⟩ := h₁.split_sent (quiet_say _) ht
    have hsaves : (c.save >>= fun c => Script.done (machine, c)).OnlySends fun _ => False :=
      (Cache.only_save trivial).bind fun _ => only_done _
    exact (h₂.of_onlySends hsaves ht).elim
  | none =>
    rcases h₁.split_bind with ⟨after', o', -, hcreate⟩ | ⟨machine, es₃, es₄, -, -, h₂⟩
    · exact ⟨after', o', hcreate⟩
    · have hsaves : ((created machine c).save >>= fun c => Script.done (machine, c)).OnlySends
          fun _ => False := (Cache.only_save trivial).bind fun _ => only_done _
      exact (h₂.of_onlySends hsaves ht).elim

theorem run_sent {directory : String} {rateLimit : Nat} {o : Except Failure Address}
    (h : (run payer now config ⟨directory, place, choice, rateLimit⟩).Runs (before ++ e :: after) o)
    (ht : e.request.sent? = some t) :
    ∃ plan settings es₁ es₂, before = es₁ ++ es₂ ∧
      (Maker.upload directory rateLimit).Checked payer now config place choice es₁ plan settings ∧
      (t.IsFurther payer ∨ ∃ after' o',
        (Machine.create payer settings plan.details plan.items).Runs (es₂ ++ e :: after') o') := by
  obtain ⟨p, es₁, es₂, rfl, hplan, h₁⟩ := h.split_sent (quiet_plan _ _) ht
  obtain ⟨settings, es₃, es₄, rfl, hcheck, hsettings, h₂⟩ := checks_of_sent h₁ ht
  obtain ⟨c, es₅, es₆, rfl, -, h₃⟩ := h₂.split_sent (Cache.quiet_load _ _ _ _) ht
  obtain ⟨_, es₇, es₈, rfl, -, h₄⟩ := h₃.split_sent (quiet_say _) ht
  have hchecked : (Maker.upload directory rateLimit).Checked payer now config place choice
      (es₁ ++ es₃ ++ es₅ ++ es₇) ⟨p.details, p.collection, p.available⟩ settings :=
    { plans := ⟨p, hplan.doneIn.mono ⟨[], es₃ ++ es₅ ++ es₇, by simp⟩, rfl⟩
      collection := hcheck.mono ⟨es₁, es₅ ++ es₇, by simp⟩
      settings := hsettings.mono ⟨es₁, es₅ ++ es₇, by simp⟩ }
  rcases h₄.split_bind with ⟨after', o', -, hmachine⟩ | ⟨⟨machine, c'⟩, es₉, es₀, rfl, -, hrest⟩
  · exact ⟨_, settings, _, es₈, by simp, hchecked, .inr (machine_sent hmachine ht)⟩
  · refine ⟨_, settings, _, es₉ ++ es₀, by simp, hchecked, .inl (hrest.of_onlySends ?_ ht)⟩
    refine (only_request trivial).bind fun _ => onlySends_ofExcept.bind fun bs => ?_
    exact only_finish payer _ ⟨⟨p, settings, c⟩, machine, c', bs⟩

end Upload

/-- **Nothing is sent unchecked.** When a command sends a transaction, it has its plan and its
settings and has found the collection right. The transaction creates its machine from them or is one
of those that follow on a machine. -/
theorem Maker.run_sent {maker : Maker} {o : Except Failure Address}
    (h : (maker.script payer now config place choice).Runs (before ++ e :: after) o)
    (ht : e.request.sent? = some t) :
    ∃ plan settings es₁ es₂, before = es₁ ++ es₂ ∧
      maker.Checked payer now config place choice es₁ plan settings ∧
      (t.IsFurther payer ∨ ∃ after' o',
        (Machine.create payer settings plan.details plan.items).Runs (es₂ ++ e :: after') o') := by
  cases maker with
  | deployment => exact Deploy.run_sent h ht
  | upload directory rateLimit => exact Upload.run_sent h ht

end

/-! ## The collection -/

/-- **A collection is verified before anything is sent.** The check of a mint reads its account, its
metadata and its master edition, one after another and up to the first one that is not as it has to
be. It asks for nothing else, and it succeeds if and only if all three are.

When a deployment or an upload sends a transaction, whatever this does and whether or not the
collection is to be set, either no mint is named or the check of the mint that is named has
succeeded before. -/
theorem CollectionMint.check_guards (payer : Address) :
    (∀ mint accounts, ∃ reads o, Course payer mint accounts reads o ∧
        (o = .ok () ↔ Verified payer mint accounts) ∧
        ∀ es o', (∀ e ∈ es, accounts.Shows e) →
          ((check payer mint).Runs es o' ↔ es = reads.map accounts.read ∧ o' = o)) ∧
      ∀ (maker : Maker) now config place choice before e after t o,
        (maker.script payer now config place choice).Runs (before ++ e :: after) o →
        e.request.sent? = some t →
        ∃ collection, parse choice.mint = .ok collection ∧
          ∀ mint ∈ collection, (check payer mint).DoneIn () before := by
  constructor
  · intro mint accounts
    obtain ⟨reads, o, hcourse⟩ := exists_course payer mint accounts
    exact ⟨reads, o, hcourse, hcourse.ok_iff, fun es o' hes => hcourse.runs_iff hes⟩
  · intro maker now config place choice before e after t o hrun ht
    obtain ⟨plan, settings, es₁, es₂, rfl, hchecked, -⟩ := Maker.run_sent hrun ht
    refine ⟨plan.collection, hchecked.plans.parse, fun mint hmint => ?_⟩
    exact (hchecked.verified mint hmint).mono ⟨[], es₂, rfl⟩

namespace Sample

/-- The metadata of a token without a name that the payer may change. -/
def metadata : TokenMetadata := ⟨payer, token, "", "", ""⟩

def metadataBytes : Bytes :=
  Borsh.u8 4 ++ Borsh.address payer ++ Borsh.address token ++ Borsh.text "" ++ Borsh.text ""
    ++ Borsh.text "" ++ Borsh.u16 0 ++ Borsh.option (Borsh.list Machine.Creator.encode) none
    ++ Borsh.bool false ++ Borsh.bool true ++ Borsh.option Borsh.u8 none

/-- A ledger with a token that can stand for a collection. -/
def tokenLedger : Ledger :=
  { Ledger.blank with
    keys := 1
    accounts :=
      [(token, mintBytes), (Address.metadata token, metadataBytes),
        (Address.masterEdition token, [6])] }

/-- What the ledger answers. -/
def collectionAccounts : Accounts := fun a => .ok (tokenLedger.content? a)

/-- The token is asked for, but it is not to be set. -/
def unset : CollectionChoice := ⟨some token.text, false⟩

theorem found_metadata {a : Address} (h : tokenLedger.content? a = some metadataBytes) :
    metadata.Found (collectionAccounts a) := by
  refine ⟨metadataBytes, congrArg Except.ok h, metadataBytes, [], ?_, (List.append_nil _).symm⟩
  exact ⟨4, 0, none, false, true, none, by decide, by decide, by decide, by decide, nofun, rfl⟩

theorem verified_token : CollectionMint.Verified payer token collectionAccounts where
  token := ⟨mint, mintBytes, congrArg Except.ok (by decide +kernel), usable_mintBytes⟩
  metadata := ⟨metadata, found_metadata (by decide +kernel), rfl⟩
  edition := ⟨[6], congrArg Except.ok (by decide +kernel), .inr rfl⟩

end Sample

/-- A deployment that does not set its collection has verified it all the same. -/
theorem CollectionMint.check_guards_unset :
    (∃ es, (check Sample.payer Sample.token).Runs es (.ok ()) ∧ es.length = 3) ∧
      ∃ es o, (Maker.deployment.script Sample.payer 0 Sample.config Sample.place
          Sample.unset).Runs es o ∧
        (∃ e ∈ es, e.request.sent?.isSome) ∧ (check Sample.payer Sample.token).DoneIn () es := by
  have hguards := check_guards Sample.payer
  constructor
  · obtain ⟨reads, o, hcourse, hiff, hruns⟩ := hguards.1 Sample.token Sample.collectionAccounts
    obtain rfl := hiff.2 Sample.verified_token
    cases hcourse with
    | verified h => exact ⟨_, (hruns _ _ (shows_reads _ _)).2 ⟨rfl, rfl⟩, rfl⟩
  · have hrun := Ledger.runs_transcript (Deploy.run Sample.payer 0 Sample.config Sample.place
      Sample.unset) Sample.tokenLedger
    have hsent : ∃ e ∈ (Ledger.transcript (Deploy.run Sample.payer 0 Sample.config Sample.place
      Sample.unset) Sample.tokenLedger).1, e.request.sent?.isSome = true := by decide +kernel
    have hparse : (parse Sample.unset.mint).toOption = some (some Sample.token) := by
      decide +kernel
    refine ⟨_, _, hrun, hsent, ?_⟩
    obtain ⟨e, he, ht⟩ := hsent
    obtain ⟨t, ht⟩ := Option.isSome_iff_exists.1 ht
    obtain ⟨before, after, hes⟩ := List.append_of_mem he
    rw [hes] at hrun ⊢
    obtain ⟨collection, hcollection, hchecks⟩ :=
      hguards.2 .deployment 0 Sample.config Sample.place Sample.unset before e after t _ hrun ht
    rw [hcollection] at hparse
    obtain rfl := Option.some.inj hparse
    exact (hchecks _ rfl).mono ⟨[], e :: after, rfl⟩

end CandyDrop
