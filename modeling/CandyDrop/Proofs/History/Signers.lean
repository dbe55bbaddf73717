import CandyDrop.Proofs.History.Sent
import CandyDrop.Proofs.Mint.Delegates

/-!
# Who signs

The cluster refuses a transaction if a signature is missing, and so it does if there is one that no
instruction asks for. The payer signs every transaction. So the further keys that sign a transaction
have to be those that its instructions ask for besides the payer (`Transaction.IsSigned`).

For deployments and uploads this is read off the three kinds of transactions that they send. In a
mint the keys are made where the accounts are put together, in two places that do not know of each
other (`Extras.OfWhitelist`, `Extras.OfToken`); each of them brings the keys that its accounts ask
for, and so do both together (`Minting.Prepared.signers_accounts`).
-/

namespace CandyDrop

/-- The keys that sign for these accounts. -/
def AccountUse.signers (us : List AccountUse) : List Address :=
  (us.filter AccountUse.isSigner).map AccountUse.address

theorem AccountUse.signers_append (us vs : List AccountUse) :
    signers (us ++ vs) = signers us ++ signers vs := by
  rw [signers, List.filter_append, List.map_append, signers, signers]

/-- The keys that an instruction asks for. -/
def Instruction.signers (i : Instruction) : List Address := AccountUse.signers i.accounts

/-- Every key that an instruction asks for is the payer or signs, and every key that signs is asked
for. -/
structure Transaction.IsSigned (payer : Address) (t : Transaction) : Prop where
  complete : ∀ i ∈ t.instructions, ∀ a ∈ i.signers, a = payer ∨ a ∈ t.signers
  needed : ∀ a ∈ t.signers, ∃ i ∈ t.instructions, a ∈ i.signers

/-! ## The keys that instructions ask for -/

namespace Instruction

variable (payer machine mint account key owner : Address)

@[simp] theorem signers_createAccount (lamports space : UInt64) :
    (createAccount payer account lamports space owner).signers = [payer, account] := rfl

@[simp] theorem signers_initializeMint : (initializeMint mint owner).signers = [] := rfl

@[simp] theorem signers_createTokenAccount (wallet : Address) :
    (createTokenAccount payer wallet mint).signers = [payer] := rfl

@[simp] theorem signers_mintTo (amount : UInt64) :
    (mintTo mint account owner amount).signers = [owner] := rfl

@[simp] theorem signers_approve (amount : UInt64) :
    (approve account key owner amount).signers = [owner] := rfl

@[simp] theorem signers_revoke : (revoke account owner).signers = [owner] := rfl

@[simp] theorem signers_initializeMachine (wallet : Address) (tokenMint : Option Address)
    (data : MachineData) :
    (initializeMachine machine wallet payer tokenMint data).signers = [payer] := by
  cases tokenMint <;> rfl

@[simp] theorem signers_addConfigLines (start : UInt32) (lines : List ConfigLine) :
    (addConfigLines machine payer start lines).signers = [payer] := rfl

@[simp] theorem signers_setCollection :
    (setCollection machine payer mint).signers = [payer, payer] := rfl

@[simp] theorem signers_joinCollection (collectionMint authority : Address) :
    (joinCollection machine payer mint collectionMint authority).signers = [payer] := rfl

@[simp] theorem signers_mintItem (wallet : Address) (extras : List AccountUse) :
    (mintItem machine payer wallet mint extras).signers =
      [payer, payer, payer] ++ AccountUse.signers extras := AccountUse.signers_append ..

end Instruction

/-! ## Deployments and uploads -/

theorem Transaction.IsOwn.isSigned {payer : Address} {t : Transaction} (h : t.IsOwn payer) :
    t.IsSigned payer := by
  cases h with
  | creation h =>
    obtain ⟨machine, space, lamports, -, rfl⟩ := h
    constructor <;> simp [Machine.creation]
  | setting machine mint => constructor <;> simp [CollectionMint.setting]
  | lines h =>
    obtain ⟨l, ls, rfl, rfl⟩ := Batch.transaction?_eq_some_iff.1 h
    constructor <;> simp

/-! ## Mints -/

namespace Minting

variable {payer machine : Address} {m : Machine} {es : List Event} {t : Transaction}
  {extras : Extras}

theorem Extras.OfWhitelist.signers_accounts {w : Option Machine.Whitelist}
    (h : OfWhitelist payer w es extras) : AccountUse.signers extras.accounts = extras.signers := by
  cases h <;> rfl

theorem Extras.OfToken.signers_accounts {price : UInt64} {token : Option Address}
    (h : OfToken payer price token es extras) :
    AccountUse.signers extras.accounts = extras.signers := by
  cases h <;> rfl

theorem Extras.signers_ofGatekeeper (payer : Address) (g : Option Machine.Gatekeeper) :
    AccountUse.signers (ofGatekeeper payer g).accounts = [] ∧
      (ofGatekeeper payer g).signers = [] := by
  cases g with
  | none => exact ⟨rfl, rfl⟩
  | some g =>
    obtain ⟨network, expires⟩ := g
    cases expires <;> exact ⟨rfl, rfl⟩

/-- The keys that the settings of a machine bring are those that their accounts ask for. -/
theorem Prepared.signers_accounts (h : Prepared payer machine m es t extras) :
    AccountUse.signers extras.accounts = extras.signers := by
  obtain ⟨mint, rent, collection, hwhitelist, htoken, rfl⟩ := h
  simp only [Extras.append, AccountUse.signers_append, hwhitelist.signers_accounts,
    htoken.signers_accounts, Extras.signers_ofGatekeeper]

theorem signers_newToken (payer mint : Address) (rent : UInt64) :
    ∀ i ∈ newToken payer mint rent, ∀ a ∈ i.signers, a = payer ∨ a = mint := by
  simp [newToken]

theorem signers_joining (payer machine mint : Address) (m : Machine)
    (collection : Option Machine.Collection) :
    ∀ i ∈ joining payer machine mint m collection, ∀ a ∈ i.signers, a = payer := by
  unfold joining
  split
  · split <;> simp
  · simp

/-- The transaction of a mint. -/
theorem Prepared.isSigned (h : Prepared payer machine m es t extras) : t.IsSigned payer := by
  have happroves := h.approves
  have hsigners := h.signers_accounts
  obtain ⟨mint, rent, collection, -, -, -⟩ := h
  constructor
  · rw [transaction, List.forall_mem_append, List.forall_mem_append, List.forall_mem_cons]
    refine ⟨⟨fun i hi a ha => ?_, fun i hi a ha => ?_⟩, fun a ha => ?_, fun i hi a ha => ?_⟩
    · rw [List.mem_cons]
      exact (signers_newToken payer mint rent i hi a ha).imp_right .inl
    · obtain ⟨account, key, amount, rfl⟩ := happroves i hi
      exact .inl (List.mem_singleton.1 ha)
    · rw [Instruction.signers_mintItem, hsigners] at ha
      rcases List.mem_append.1 ha with ha | ha
      · exact .inl (by simpa using ha)
      · exact .inr (List.mem_cons_of_mem mint ha)
    · exact .inl (signers_joining payer machine mint m collection i hi a ha)
  · simp only [transaction, List.forall_mem_cons]
    constructor
    · exact ⟨Instruction.createAccount payer mint rent Token.mintSize Address.tokenProgram,
        by simp [newToken], by simp⟩
    · intro a ha
      exact ⟨Instruction.mintItem machine payer m.wallet mint extras.accounts, by simp,
        by simp [hsigners, ha]⟩

/-- The transaction that takes back what was approved. -/
theorem Extras.Fits.isSigned (h : extras.Fits payer m) :
    (⟨extras.revocations, []⟩ : Transaction).IsSigned payer := by
  constructor
  · intro i hi a ha
    obtain ⟨account, rfl⟩ := h.revokes i hi
    exact .inl (List.mem_singleton.1 ha)
  · simp

theorem mintOne_isSigned {o : Except Failure Signature}
    (h : (mintOne payer machine).Runs es o) :
    ∀ e ∈ es, e.request.Sends (Transaction.IsSigned payer) := by
  rcases mintOne_sends h with hquiet | ⟨m, es₁, t, extras, -, -, hprepared, hsends⟩
  · exact fun e he => (hquiet e he).sends
  · intro e he
    rcases hsends e he with hquiet | hmint | hrevokes
    · exact hquiet.sends
    · rw [hmint]
      exact hprepared.isSigned
    · rw [hrevokes]
      exact hprepared.fits.isSigned

end Minting

/-- **Every transaction has the signatures that it needs and no others**, whatever a deployment, an
upload, a mint or several mints are given and answered. -/
theorem sends_isSigned (payer : Address) :
    (∀ now config place choice es o, (Deploy.run payer now config place choice).Runs es o →
      ∀ e ∈ es, e.request.Sends (Transaction.IsSigned payer)) ∧
    (∀ now config options es o, (Upload.run payer now config options).Runs es o →
      ∀ e ∈ es, e.request.Sends (Transaction.IsSigned payer)) ∧
    (∀ machine es o, (Minting.mintOne payer machine).Runs es o →
      ∀ e ∈ es, e.request.Sends (Transaction.IsSigned payer)) ∧
    ∀ machine number es o, (Minting.mintMany payer machine number).Runs es o →
      ∀ e ∈ es, e.request.Sends (Transaction.IsSigned payer) := by
  refine ⟨fun now config place choice es o h => ?_, fun now config options es o h => ?_,
    fun machine es o h => Minting.mintOne_isSigned h, fun machine number es o h e he => ?_⟩
  · exact h.forall_request ((Deploy.only_run ..).mono fun t ht => ht.isSigned)
  · exact h.forall_request ((Upload.only_run ..).mono fun t ht => ht.isSigned)
  · obtain ⟨turns, hturns, rfl⟩ := Minting.mintRounds_runs h
    obtain ⟨turn, hturn, he⟩ := List.mem_flatMap.1 he
    exact Minting.mintOne_isSigned (hturns.runs turn hturn) e he

/-- A mint that burns a token and is paid in one. -/
theorem sends_isSigned_burning :
    ∃ t answer, ⟨.submit t, answer⟩ ∈ Minting.Sample.burningMint.1 ∧ t.Mints ∧
      t.IsSigned Minting.Sample.wallet := by
  obtain ⟨-, -, -, hsends⟩ := Minting.Sample.burningMint_spec
  obtain ⟨t, answer, hsent, hmints⟩ := Minting.exists_of_any_sendsMint hsends
  have hsigned := (sends_isSigned Minting.Sample.wallet).2.2.1 _ _ _
    Minting.Sample.runs_burningMint _ hsent
  exact ⟨t, answer, hsent, hmints, hsigned⟩

end CandyDrop
