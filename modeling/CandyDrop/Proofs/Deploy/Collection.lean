import CandyDrop.Deploy.Collection
import CandyDrop.Proofs.Deploy.Treasury
import CandyDrop.Proofs.Token.Metadata

/-!
# Whether a token can stand for a collection

The check of a collection reads three accounts: the mint of the token, its metadata and its master
edition. `CollectionMint.Verified` says what they have to be, and `CollectionMint.Course` how far the
check comes, whatever they are: which of them it reads, in which order, and how it ends. Every run of
the check follows its course (`CollectionMint.Course.runs_iff`).
-/

namespace CandyDrop

open Script

/-- The answer shows these metadata. -/
abbrev TokenMetadata.Found (m : TokenMetadata) (answer : AccountAnswer) : Prop :=
  Account.Found TokenMetadata.Usable m answer

/-- Why the answer shows no metadata. -/
abbrev TokenMetadata.Refused (address : Address) : AccountAnswer → Failure → Prop :=
  Account.Refused (.metadataNotFound address) (TokenMetadata.Refuses address)

/-- The answer shows a master edition. -/
abbrev MasterEdition.Found (answer : AccountAnswer) : Prop :=
  Account.Found (fun _ : Unit => MasterEdition.IsMaster) () answer

/-- Why the answer shows no master edition. -/
abbrev MasterEdition.Refused (address : Address) : AccountAnswer → Failure → Prop :=
  Account.Refused (.editionNotFound address) (MasterEdition.Refuses address)

theorem TokenMetadata.only_get (mint : Address) :
    (get mint).Only Request.IsAccount fun _ => True :=
  (only_account fun _ => trivial).bind fun _ =>
    (only_ofExcept fun _ _ => trivial).bind fun _ => only_done _

theorem MasterEdition.only_check (mint : Address) :
    (check mint).Only Request.IsAccount fun _ => True :=
  (only_account fun _ => trivial).bind fun _ =>
    (only_ofExcept fun _ _ => trivial).bind fun _ => only_done _

namespace CollectionMint

variable {payer mint : Address} {accounts : Accounts} {es : List Event} {reads : List Address}
  {o : Except Failure Unit}

/-- The accounts of a token that the payer can make the collection of a machine. -/
structure Verified (payer mint : Address) (accounts : Accounts) : Prop where
  token : ∃ m : Mint, m.Found (accounts mint)
  metadata : ∃ m : TokenMetadata, m.Found (accounts (Address.metadata mint)) ∧
    m.updateAuthority = payer
  edition : MasterEdition.Found (accounts (Address.masterEdition mint))

/-- The accounts that the check reads, one after another, and how it ends. It stops at the first one
that is not as it has to be. -/
inductive Course (payer mint : Address) (accounts : Accounts) :
    List Address → Except Failure Unit → Prop
  | mint {e : Failure} (hmint : Mint.Refused mint (accounts mint) e) :
      Course payer mint accounts [mint] (.error (.collectionToken mint e))
  | metadata {m : Mint} {e : Failure} (hmint : m.Found (accounts mint))
      (hmetadata : TokenMetadata.Refused (Address.metadata mint)
        (accounts (Address.metadata mint)) e) :
      Course payer mint accounts [mint, Address.metadata mint] (.error e)
  | authority {m : Mint} {metadata : TokenMetadata} (hmint : m.Found (accounts mint))
      (hmetadata : metadata.Found (accounts (Address.metadata mint)))
      (hauthority : metadata.updateAuthority ≠ payer) :
      Course payer mint accounts [mint, Address.metadata mint]
        (.error (.deploy (.collectionAuthority metadata.updateAuthority payer)))
  | edition {m : Mint} {metadata : TokenMetadata} {e : Failure} (hmint : m.Found (accounts mint))
      (hmetadata : metadata.Found (accounts (Address.metadata mint)))
      (hauthority : metadata.updateAuthority = payer)
      (hedition : MasterEdition.Refused (Address.masterEdition mint)
        (accounts (Address.masterEdition mint)) e) :
      Course payer mint accounts [mint, Address.metadata mint, Address.masterEdition mint]
        (.error e)
  | verified (h : Verified payer mint accounts) :
      Course payer mint accounts [mint, Address.metadata mint, Address.masterEdition mint] (.ok ())

/-- Whatever the accounts are, the check has a course. -/
theorem exists_course (payer mint : Address) (accounts : Accounts) :
    ∃ reads o, Course payer mint accounts reads o := by
  obtain ⟨m, hmint⟩ | ⟨e, hmint⟩ := (Mint.accountCheck mint).found_or_refused (accounts mint)
  · obtain ⟨metadata, hmetadata⟩ | ⟨e, hmetadata⟩ :=
      (TokenMetadata.accountCheck (Address.metadata mint)).found_or_refused
        (accounts (Address.metadata mint))
    · by_cases hauthority : metadata.updateAuthority = payer
      · obtain ⟨_, hedition⟩ | ⟨e, hedition⟩ :=
          (MasterEdition.accountCheck (Address.masterEdition mint)).found_or_refused
            (accounts (Address.masterEdition mint))
        · exact ⟨_, _, .verified ⟨⟨m, hmint⟩, ⟨metadata, hmetadata, hauthority⟩, hedition⟩⟩
        · exact ⟨_, _, .edition hmint hmetadata hauthority hedition⟩
      · exact ⟨_, _, .authority hmint hmetadata hauthority⟩
    · exact ⟨_, _, .metadata hmint hmetadata⟩
  · exact ⟨_, _, .mint hmint⟩

/-! ## The run -/

/-- The check asks for nothing but accounts. -/
theorem only_check (payer mint : Address) :
    (check payer mint).Only Request.IsAccount fun _ => True := by
  refine ((Mint.only_check mint).mapFailure fun _ _ => trivial).bind fun _ => ?_
  refine (TokenMetadata.only_get mint).bind fun (_, metadata) => ?_
  dsimp only
  split
  · exact (MasterEdition.only_check mint).bind fun _ => only_done _
  · exact only_fail_iff.2 trivial

/-- The course of the check is a run of it. -/
theorem Course.runs (h : Course payer mint accounts reads o) :
    (check payer mint).Runs (reads.map accounts.read) o := by
  have hmints {m : Mint} (hmint : m.Found (accounts mint)) :
      ((Mint.check mint).mapFailure (.collectionToken mint)).Runs [accounts.read mint] (.ok m) :=
    runs_mapFailure_iff.2 ⟨.ok m, rfl, (Mint.accountCheck mint).runs_of_found hmint⟩
  have hgets {m : TokenMetadata} (hmetadata : m.Found (accounts (Address.metadata mint))) :
      (TokenMetadata.get mint).Runs [accounts.read (Address.metadata mint)]
        (.ok (Address.metadata mint, m)) :=
    (TokenMetadata.accountCheck _).runs_bind_of_found hmetadata (.done _)
  cases h with
  | mint hmint =>
    have hrun := (Mint.accountCheck mint).runs_of_refused hmint
    exact runs_bind_iff.2 (.inl ⟨_, rfl, runs_mapFailure_iff.2 ⟨_, rfl, hrun⟩⟩)
  | metadata hmint hmetadata =>
    refine (hmints hmint).bind ?_
    have hrun : (TokenMetadata.get mint).Runs [accounts.read (Address.metadata mint)] (.error _) :=
      (TokenMetadata.accountCheck _).runs_bind_of_refused hmetadata
    exact runs_bind_iff.2 (.inl ⟨_, rfl, hrun⟩)
  | authority hmint hmetadata hauthority =>
    refine (hmints hmint).bind ((hgets hmetadata).bind ?_)
    dsimp only
    rw [if_neg hauthority]
    exact .fail _
  | edition hmint hmetadata hauthority hedition =>
    refine (hmints hmint).bind ((hgets hmetadata).bind ?_)
    dsimp only
    rw [if_pos hauthority]
    have hrun : (MasterEdition.check mint).Runs [accounts.read (Address.masterEdition mint)]
        (.error _) := (MasterEdition.accountCheck _).runs_bind_of_refused hedition
    exact runs_bind_iff.2 (.inl ⟨_, rfl, hrun⟩)
  | verified h =>
    obtain ⟨m, hmint⟩ := h.token
    obtain ⟨metadata, hmetadata, hauthority⟩ := h.metadata
    refine (hmints hmint).bind ((hgets hmetadata).bind ?_)
    dsimp only
    rw [if_pos hauthority]
    have hrun : (MasterEdition.check mint).Runs [accounts.read (Address.masterEdition mint)]
        (.ok (Address.masterEdition mint)) :=
      (MasterEdition.accountCheck _).runs_bind_of_found h.edition (.done _)
    exact hrun.bind (.done ())

/-- **The check follows its course**, and nothing else is asked for. -/
theorem Course.runs_iff {o' : Except Failure Unit} (h : Course payer mint accounts reads o)
    (hes : ∀ e ∈ es, accounts.Shows e) :
    (check payer mint).Runs es o' ↔ es = reads.map accounts.read ∧ o' = o := by
  constructor
  · intro hrun
    obtain ⟨reads', rfl⟩ := hrun.exists_reads (only_check payer mint) hes
    obtain ⟨rfl, rfl⟩ := hrun.eq_of_reads h.runs
    exact ⟨rfl, rfl⟩
  · rintro ⟨rfl, rfl⟩
    exact h.runs

theorem Course.ok_iff (h : Course payer mint accounts reads o) :
    o = .ok () ↔ Verified payer mint accounts := by
  constructor
  · rintro rfl
    cases h with
    | verified hverified => exact hverified
  · intro hverified
    exact (h.runs.eq_of_reads (Course.verified hverified).runs).2

end CollectionMint

end CandyDrop
