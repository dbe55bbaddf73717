import CandyDrop.Proofs.Mint.Delegates
import Mathlib.Data.List.Forall2

/-!
# The shape of a mint

A mint is put together from what the machine asks for and from what is answered on the way
(`Parts`). Its transaction makes a new token, approves what has to be approved, calls the program
once, and then puts the item into the collection, if there is one and its authority is kept
(`Parts.IsMint`). Behind the accounts that every call has come those of the gatekeeper, of the
whitelist and of the payment, in this order. Once this transaction is accepted, every approval is
taken back in a second one, which does nothing else, and there is none if nothing was approved
(`mintOne_shape`).
-/

namespace CandyDrop

namespace Instruction

/-- Takes back an approval, of the same account and for the same owner. -/
def Revokes (approval revocation : Instruction) : Prop :=
  ∃ account delegate owner amount,
    approval = approve account delegate owner amount ∧ revocation = revoke account owner

/-- The name of the call that mints has another hash than that of the call for the collection. -/
theorem discriminator_mint_ne :
    discriminator "global" "set_collection_during_mint" ≠ discriminator "global" "mint_nft" := by
  decide +kernel

end Instruction

/-- A first stage that does not fail leads to the second one. -/
theorem Script.Runs.stage_of_succeeds {α β : Type} {P : Event → Prop} {s : Script α}
    {f : α → Script β} {es : List Event} {o : Except Failure β} (h : (s >>= f).Runs es o)
    (hs : s.Succeeds P) (hes : ∀ e ∈ es, P e) :
    ∃ x es₁ es₂, es = es₁ ++ es₂ ∧ s.Runs es₁ (.ok x) ∧ (f x).Runs es₂ o := by
  rcases runs_bind_iff.1 h with ⟨e, rfl, hs'⟩ | hstages
  · obtain ⟨_, ho⟩ := hs'.exists_ok hs hes
    cases ho
  · exact hstages

/-! ## What the account of a collection shows -/

namespace Machine.Collection

/-- What reading the collection comes to, by the content of its account. -/
inductive Shows : Option Bytes → Except Failure (Option Collection) → Prop
  | absent : Shows none (.ok none)
  | empty : Shows (some []) (.ok none)
  | named {bs : Bytes} {c : Collection} (hne : bs ≠ []) (hread : ofAccount bs = .ok c) :
      Shows (some bs) (.ok (some c))
  | unreadable {bs : Bytes} {e : LayoutFault} (hne : bs ≠ []) (hread : ofAccount bs = .error e) :
      Shows (some bs) (.error (.account (.layout e)))

theorem get?_runs {address : Address} {es : List Event} {o : Except Failure (Option Collection)}
    (h : (get? address).Runs es o) : ∃ answer, es = [⟨.account address, answer⟩] ∧
      ∀ content, answer = .ok content → Shows content o := by
  obtain ⟨answer, es', rfl, hend⟩ := Script.runs_ask_iff.1 h
  refine ⟨answer, ?_⟩
  cases answer with
  | error fault =>
    obtain ⟨rfl, rfl⟩ := Script.runs_fail_iff.1 hend
    exact ⟨rfl, by rintro _ ⟨⟩⟩
  | ok content =>
    suffices hshows : es' = [] ∧ Shows content o by
      refine ⟨by rw [hshows.1], ?_⟩
      rintro _ ⟨⟩
      exact hshows.2
    cases content with
    | none =>
      obtain ⟨rfl, rfl⟩ := Script.runs_done_iff.1 hend
      exact ⟨rfl, .absent⟩
    | some bs =>
      cases bs with
      | nil =>
        obtain ⟨rfl, rfl⟩ := Script.runs_done_iff.1 hend
        exact ⟨rfl, .empty⟩
      | cons b bs =>
        have hne : b :: bs ≠ [] := List.cons_ne_nil _ _
        change (Script.ofExcept (fun e => .account (.layout e)) (ofAccount (b :: bs)) >>=
          fun c => Script.done (some c)).Runs es' o at hend
        cases hread : ofAccount (b :: bs) with
        | error e =>
          rw [hread] at hend
          obtain ⟨rfl, rfl⟩ := Script.runs_fail_iff.1 hend
          exact ⟨rfl, .unreadable hne hread⟩
        | ok c =>
          rw [hread] at hend
          obtain ⟨rfl, rfl⟩ := Script.runs_done_iff.1 hend
          exact ⟨rfl, .named hne hread⟩

/-- Once the account of a collection is read, a script fails or goes on with the collection. -/
theorem get?_stage {α : Type} {address : Address} {f : Option Collection → Script α}
    {es : List Event} {o : Except Failure α} (h : (get? address >>= f).Runs es o)
    (hreads : ∀ e ∈ es, e.request.IsQuiet → e.succeeds = true) :
    ∃ content shown rest, es = ⟨.account address, .ok content⟩ :: rest ∧ Shows content shown ∧
      ((∃ e, shown = .error e ∧ rest = [] ∧ o = .error e) ∨
        ∃ c, shown = .ok c ∧ (f c).Runs rest o) := by
  have hread : ∀ answer, ⟨.account address, answer⟩ ∈ es → ∃ content, answer = .ok content := by
    intro answer hanswer
    cases answer with
    | error fault => cases hreads _ hanswer trivial
    | ok content => exact ⟨content, rfl⟩
  rcases Script.runs_bind_iff.1 h with ⟨e, rfl, hget⟩ | ⟨c, es₁, es₂, rfl, hget, hf⟩
  · obtain ⟨answer, rfl, hshows⟩ := get?_runs hget
    obtain ⟨content, rfl⟩ := hread answer (by simp)
    exact ⟨content, _, [], rfl, hshows content rfl, .inl ⟨e, rfl, rfl, rfl⟩⟩
  · obtain ⟨answer, rfl, hshows⟩ := get?_runs hget
    obtain ⟨content, rfl⟩ := hread answer (by simp)
    exact ⟨content, _, es₂, rfl, hshows content rfl, .inr ⟨c, rfl, hf⟩⟩

end Machine.Collection

namespace Minting

open Script

variable {payer machine : Address} {m : Machine} {es fs : List Event} {o : Except Failure Signature}

/-! ## The parts of a mint -/

/-- The accounts of the gatekeeper. -/
inductive Extras.OfGatekeeper (payer : Address) :
    Option Machine.Gatekeeper → List AccountUse → Prop
  | absent : OfGatekeeper payer .none []
  /-- The gateway token only has to be there. -/
  | kept {g : Machine.Gatekeeper} (hkept : g.expireOnUse = false) :
      OfGatekeeper payer (some g) [.writes (Address.gatewayToken payer g.network)]
  /-- The gateway token is used up. -/
  | expired {g : Machine.Gatekeeper} (hexpires : g.expireOnUse = true) :
      OfGatekeeper payer (some g)
        [.writes (Address.gatewayToken payer g.network), .reads Address.gatewayProgram,
          .reads (Address.gatewayExpiry g.network)]

theorem Extras.ofGatekeeper_spec (payer : Address) (g : Option Machine.Gatekeeper) :
    OfGatekeeper payer g (ofGatekeeper payer g).accounts := by
  cases g with
  | none => exact .absent
  | some g =>
    cases hexpires : g.expireOnUse with
    | false => simpa [ofGatekeeper, hexpires] using OfGatekeeper.kept hexpires
    | true => simpa [ofGatekeeper, hexpires] using OfGatekeeper.expired hexpires

/-- The instruction that puts the item into the collection: there is one exactly if the account of
the collection is not empty and the machine keeps its authority. -/
inductive Joining (payer machine mint : Address) (m : Machine) :
    Option Bytes → List Instruction → Prop
  | joined {bs : Bytes} {c : Machine.Collection} (hne : bs ≠ [])
      (hread : Machine.Collection.ofAccount bs = .ok c) (hretain : m.data.retainAuthority = true) :
      Joining payer machine mint m (some bs)
        [Instruction.joinCollection machine payer mint c.mint m.authority]
  | apart {content : Option Bytes}
      (hapart : ¬((∃ bs, content = some bs ∧ bs ≠ []) ∧ m.data.retainAuthority = true)) :
      Joining payer machine mint m content []

/-- What a mint is put together from: the new token, the parts of the settings with what was asked
for them, and the content of the account of the collection. -/
structure Parts where
  mint : Address
  rent : UInt64
  gatekeeper : List AccountUse
  whitelist : Extras
  whitelistEvents : List Event
  payment : Extras
  paymentEvents : List Event
  collection : Option Bytes

namespace Parts

/-- The parts follow from the settings and the answers. -/
structure Fit (payer : Address) (m : Machine) (p : Parts) : Prop where
  gatekeeper : Extras.OfGatekeeper payer m.data.gatekeeper p.gatekeeper
  whitelist : Extras.OfWhitelist payer m.data.whitelist p.whitelistEvents p.whitelist
  payment : Extras.OfToken payer m.data.price m.tokenMint p.paymentEvents p.payment

/-- What is asked for the parts, with the answers. -/
def events (machine : Address) (p : Parts) : List Event :=
  ⟨.freshKey, p.mint⟩ :: ⟨.rent Token.mintSize, .ok p.rent⟩ ::
    (p.whitelistEvents ++ p.paymentEvents ++
      [⟨.account (Address.machineCollection machine).1, .ok p.collection⟩])

/-- The accounts that the call has in addition. -/
def accounts (p : Parts) : List AccountUse :=
  p.gatekeeper ++ p.whitelist.accounts ++ p.payment.accounts

def approvals (p : Parts) : List Instruction := p.whitelist.approvals ++ p.payment.approvals

def revocations (p : Parts) : List Instruction := p.whitelist.revocations ++ p.payment.revocations

/-- The call of the program that mints. Sixteen accounts stand in front in every such call, and then
those of the parts. -/
structure IsCall (payer machine : Address) (m : Machine) (p : Parts) (call : Instruction) :
    Prop where
  program : call.program = Address.candyMachineProgram
  accounts : call.accounts =
    [.writes machine, .reads (Address.machineCreator machine).1, .signs payer, .writes m.wallet,
      .writes (Address.metadata p.mint), .writes p.mint, .signs payer, .signs payer,
      .writes (Address.masterEdition p.mint), .reads Address.metadataProgram,
      .reads Address.tokenProgram, .reads Address.systemProgram, .reads Address.rentSysvar,
      .reads Address.clockSysvar, .reads Address.slotHashesSysvar,
      .reads Address.instructionsSysvar] ++
      p.gatekeeper ++ p.whitelist.accounts ++ p.payment.accounts
  data : call.data =
    discriminator "global" "mint_nft" ++ Borsh.u8 (Address.machineCreator machine).2

/-- The transaction that mints. -/
structure IsMint (payer machine : Address) (m : Machine) (p : Parts) (t : Transaction) : Prop where
  instructions : ∃ call joining, p.IsCall payer machine m call ∧
    Joining payer machine p.mint m p.collection joining ∧
    t.instructions =
      [Instruction.createAccount payer p.mint p.rent Token.mintSize Address.tokenProgram,
        Instruction.initializeMint p.mint payer,
        Instruction.createTokenAccount payer payer p.mint,
        Instruction.mintTo p.mint (Address.associatedToken payer p.mint) payer 1] ++
      p.approvals ++ [call] ++ joining
  once : t.instructions.countP (fun i => (i.arguments? "mint_nft").isSome) = 1

end Parts

/-! ## Approvals and what takes them back -/

theorem Extras.OfWhitelist.forall₂_revokes {w : Option Machine.Whitelist} {extras : Extras}
    (h : OfWhitelist payer w es extras) :
    List.Forall₂ Instruction.Revokes extras.approvals extras.revocations := by
  cases h with
  | absent => exact .nil
  | shown hmode => exact .nil
  | unheld hmode burner => exact .nil
  | burnt hmode burner bs => exact .cons ⟨_, _, _, _, rfl, rfl⟩ .nil

theorem Extras.OfToken.forall₂_revokes {price : UInt64} {token : Option Address} {extras : Extras}
    (h : OfToken payer price token es extras) :
    List.Forall₂ Instruction.Revokes extras.approvals extras.revocations := by
  cases h with
  | absent => exact .nil
  | paid token key => exact .cons ⟨_, _, _, _, rfl, rfl⟩ .nil

/-- Every approval is taken back, in the same order. -/
theorem Parts.Fit.forall₂_revokes {p : Parts} (h : p.Fit payer m) :
    List.Forall₂ Instruction.Revokes p.approvals p.revocations :=
  List.rel_append h.whitelist.forall₂_revokes h.payment.forall₂_revokes

theorem Parts.Fit.approves {p : Parts} (h : p.Fit payer m) :
    ∀ i ∈ p.approvals, ∃ account key amount, i = Instruction.approve account key payer amount :=
  List.forall_mem_append.2 ⟨h.whitelist.approves, h.payment.approves⟩

/-! ## The transaction -/

theorem joining_of_shows {content : Option Bytes} {collection : Option Machine.Collection}
    {mint : Address} (h : Machine.Collection.Shows content (.ok collection)) :
    Joining payer machine mint m content (joining payer machine mint m collection) := by
  cases h with
  | absent => exact .apart (by simp)
  | empty => exact .apart (by simp)
  | named hne hread =>
    cases hretain : m.data.retainAuthority with
    | true => simpa [joining, hretain] using Joining.joined hne hread hretain
    | false => simpa [joining, hretain] using Joining.apart fun h => by simp [hretain] at h

theorem Joining.countP_eq {mint : Address} {content : Option Bytes} {is : List Instruction}
    (h : Joining payer machine mint m content is) :
    is.countP (fun i => (i.arguments? "mint_nft").isSome) = 0 := by
  cases h with
  | joined hne hread hretain =>
    have hother := Instruction.arguments?_machineCall_of_ne Instruction.discriminator_mint_ne
    simp [Instruction.joinCollection, hother]
  | apart hapart => rfl

theorem Parts.isCall_mintItem (payer machine : Address) (m : Machine) (p : Parts) :
    p.IsCall payer machine m (Instruction.mintItem machine payer m.wallet p.mint p.accounts) where
  program := rfl
  accounts := by simp [Instruction.mintItem, Instruction.machineCall, Parts.accounts]
  data := rfl

/-- The transaction that is put together from parts has the shape of a mint. -/
theorem Parts.Fit.isMint {p : Parts} {extras : Extras} {collection : Option Machine.Collection}
    (h : p.Fit payer m) (hshows : Machine.Collection.Shows p.collection (.ok collection))
    (haccounts : extras.accounts = p.accounts) (happrovals : extras.approvals = p.approvals) :
    p.IsMint payer machine m (transaction payer machine p.mint m p.rent extras collection) where
  instructions := by
    refine ⟨_, _, p.isCall_mintItem payer machine m, joining_of_shows hshows, ?_⟩
    simp [transaction, newToken, haccounts, happrovals]
  once := by
    have hnew : (newToken payer p.mint p.rent).countP
        (fun i => (i.arguments? "mint_nft").isSome) = 0 :=
      List.countP_eq_zero.2 fun i hi => by simp [(newToken_spec payer p.mint p.rent i hi).1]
    have happroves : p.approvals.countP (fun i => (i.arguments? "mint_nft").isSome) = 0 := by
      refine List.countP_eq_zero.2 fun i hi => ?_
      obtain ⟨account, key, amount, rfl⟩ := h.approves i hi
      simp [arguments?_approve]
    have hcall : ((Instruction.mintItem machine payer m.wallet p.mint
        p.accounts).arguments? "mint_nft").isSome = true := by
      rw [Instruction.mintItem, Instruction.arguments?_machineCall_self]
      rfl
    have hlast : Joining payer machine p.mint m p.collection
        (joining payer machine p.mint m collection) := joining_of_shows hshows
    rw [transaction, haccounts, happrovals, List.countP_append, List.countP_append, hnew,
      happroves, List.countP_cons, hlast.countP_eq, if_pos hcall]

/-! ## How a mint goes -/

/-- **How an item is minted** if everything that is read is answered. -/
theorem mintItem_parts (h : (mintItem payer machine m).Runs es o)
    (hreads : ∀ e ∈ es, e.request.IsQuiet → e.succeeds = true) :
    ∃ p rest, Parts.Fit payer m p ∧ es = p.events machine ++ rest ∧
      ((∃ bs e, p.collection = some bs ∧ bs ≠ [] ∧ Machine.Collection.ofAccount bs = .error e ∧
          rest = [] ∧ o = .error (.account (.layout e))) ∨
        ∃ t, p.IsMint payer machine m t ∧ Sending t p.revocations rest o) := by
  obtain ⟨mint, _, es₁, rfl, hmint, h₁⟩ := h.stage_of_succeeds (succeeds_request _) hreads
  obtain ⟨_, rfl, ho⟩ := runs_request_iff.1 hmint
  cases ho
  replace hreads := (List.forall_mem_append.1 hreads).2
  obtain ⟨rent, _, es₂, rfl, hrent, h₂⟩ :=
    h₁.stage_of_succeeds (succeeds_rent (fun _ h => h) _) hreads
  obtain ⟨answer, _, rfl, hanswer⟩ := runs_ask_iff.1 hrent
  obtain ⟨rfl, ho⟩ := runs_ofExcept_iff.1 hanswer
  obtain rfl := mapError_eq_ok_iff.1 ho.symm
  replace hreads := (List.forall_mem_append.1 hreads).2
  obtain ⟨extras, _, es₃, rfl, hextras, h₃⟩ :=
    h₂.stage_of_succeeds (Extras.succeeds_ofMachine (fun _ h => h) payer m) hreads
  obtain ⟨whitelistEvents, paymentEvents, whitelist, payment, rfl, hwhitelist, hpayment, rfl⟩ :=
    Extras.ofMachine_runs hextras
  replace hreads := (List.forall_mem_append.1 hreads).2
  obtain ⟨content, shown, rest, rfl, hshows, hends⟩ := Machine.Collection.get?_stage h₃ hreads
  let p : Parts :=
    { mint, rent, whitelist, whitelistEvents, payment, paymentEvents
      gatekeeper := (Extras.ofGatekeeper payer m.data.gatekeeper).accounts
      collection := content }
  have hfit : p.Fit payer m := ⟨Extras.ofGatekeeper_spec .., hwhitelist, hpayment⟩
  refine ⟨p, rest, hfit, by simp [Parts.events, p], ?_⟩
  rcases hends with ⟨e, rfl, rfl, rfl⟩ | ⟨collection, rfl, hsends⟩
  · cases hshows with
    | unreadable hne hread => exact .inl ⟨_, _, rfl, hne, hread, rfl, rfl⟩
  · have hrevocations : (((Extras.ofGatekeeper payer m.data.gatekeeper).append whitelist).append
        payment).revocations = p.revocations := by
      rw [Extras.append, Extras.append, Extras.revocations_ofGatekeeper, List.nil_append]
      rfl
    have hsending := sending_of_runs hsends
    rw [hrevocations] at hsending
    exact .inr ⟨_, hfit.isMint hshows rfl (approvals_eq rfl), hsending⟩

/-- How a mint goes once its machine is read and has items left. -/
theorem mintOne_parts (hrun : (mintOne payer machine).Runs es o) (hoffers : Offers machine m es)
    (hreads : ∀ e ∈ es, e.request.IsQuiet → e.succeeds = true) :
    ∃ first p rest, es = first :: (p.events machine ++ rest) ∧ Parts.Fit payer m p ∧
      ((∃ bs e, p.collection = some bs ∧ bs ≠ [] ∧ Machine.Collection.ofAccount bs = .error e ∧
          rest = [] ∧ o = .error (.account (.layout e))) ∨
        ∃ t, p.IsMint payer machine m t ∧ Sending t p.revocations rest o) := by
  obtain ⟨bs, es', rfl, hm, hleft⟩ := hoffers
  have hget : (Machine.get machine).Runs [⟨.account machine, .ok (some bs)⟩] (.ok m) :=
    Machine.get_runs_iff.2 ⟨_, rfl, (Machine.shown_eq_ok_iff.2 ⟨bs, rfl, hm⟩).symm⟩
  have hmint : (if m.remaining = 0 then Script.fail (.mint (.soldOut machine))
      else mintItem payer machine m).Runs es' o :=
    Runs.of_bind (f := fun m => if m.remaining = 0 then Script.fail (.mint (.soldOut machine))
      else mintItem payer machine m) hrun hget
  rw [if_neg (Machine.remaining_ne_zero_iff.2 hleft)] at hmint
  obtain ⟨p, rest, hfit, rfl, hends⟩ := mintItem_parts hmint (List.forall_mem_cons.1 hreads).2
  exact ⟨_, p, rest, rfl, hfit, hends⟩

theorem Sending.exists_ok {t : Transaction} {revocations : List Instruction}
    (h : Sending t revocations es o) (hes : ∀ e ∈ es, e.succeeds = true) :
    ∃ signature, o = .ok signature := by
  cases h with
  | refused fault => simp [Event.succeeds] at hes
  | minted signature hnone => exact ⟨signature, rfl⟩
  | cleaned signature last hne => exact ⟨signature, rfl⟩
  | stranded signature fault hne => simp [Event.succeeds] at hes

/-- **The shape of a mint** from a machine with items left, if everything that is read is answered.

It is sent as soon as its parts are there, in one transaction, and once this is accepted, there is a
second one exactly if something was approved, with what takes back each of the approvals and nothing
else. If the transactions are accepted too, then the mint succeeds. Only if there is something in
the account of the collection that is not a collection, then reading it fails, and nothing is
sent. -/
theorem mintOne_shape (hrun : (mintOne payer machine).Runs es o) (hoffers : Offers machine m es)
    (hreads : ∀ e ∈ es, e.request.IsQuiet → e.succeeds = true) :
    ∃ first p rest, es = first :: (p.events machine ++ rest) ∧ Parts.Fit payer m p ∧
      ((∃ bs e, p.collection = some bs ∧ bs ≠ [] ∧ Machine.Collection.ofAccount bs = .error e ∧
          rest = [] ∧ o = .error (.account (.layout e))) ∨
        ∃ t revocations, p.IsMint payer machine m t ∧
          List.Forall₂ Instruction.Revokes p.approvals revocations ∧ Sending t revocations rest o ∧
          ((∀ e ∈ es, e.succeeds = true) → ∃ signature, o = .ok signature)) := by
  obtain ⟨first, p, rest, rfl, hfit, hends⟩ := mintOne_parts hrun hoffers hreads
  refine ⟨first, p, rest, rfl, hfit, hends.imp_right ?_⟩
  rintro ⟨t, hshape, hsending⟩
  refine ⟨t, p.revocations, hshape, hfit.forall₂_revokes, hsending, fun hes => ?_⟩
  exact hsending.exists_ok fun e he => hes e (by simp [he])

namespace Sample

/-- A machine with all there can be: a gateway token is used up, a whitelist token is burnt, and the
price is paid in another token. -/
def guarded : Machine :=
  { burning token with
    tokenMint := some (Ledger.newKey 8)
    data := { (burning token).data with gatekeeper := some ⟨Ledger.newKey 9, true⟩ } }

/-- An account that names a collection. -/
def collectionAccount : Bytes :=
  discriminator "account" "CollectionPDA" ++ (Ledger.newKey 5).bytes ++ target.bytes

/-- Answers of a cluster with this content at every other address, and with a new key each time. -/
def guardedAnswers (content : Bytes) (before : List Event) : (r : Request) → r.Answer
  | .freshKey => Ledger.newKey before.length
  | r => answers guarded (some content) true before r

/-- The transcript of a mint from this machine, and how it ends. -/
def guardedMint (content : Bytes) : List Event × Except Failure Signature :=
  (mintOne wallet target).play (guardedAnswers content) []

theorem runs_guardedMint (content : Bytes) :
    (mintOne wallet target).Runs (guardedMint content).1 (guardedMint content).2 :=
  Script.runs_play ..

/-- The machine is read, everything is answered, and the mint is sent. -/
theorem guardedMint_spec :
    let mint := guardedMint collectionAccount
    offered? mint.1 = some guarded ∧ (∀ e ∈ mint.1, e.succeeds = true) ∧
      mint.1.any Event.sendsMint = true ∧ mint.2.isOk = true := by
  decide +kernel

end Sample

/-- Both transactions are sent if the machine asks for everything there is. -/
theorem mintOne_shape_guarded :
    ∃ es first p t u signature last, (mintOne Sample.wallet Sample.target).Runs es (.ok signature) ∧
      Offers Sample.target Sample.guarded es ∧ (∀ e ∈ es, e.succeeds = true) ∧
      es = first :: (p.events Sample.target ++
        [⟨.submit t, .ok signature⟩, ⟨.submit u, .ok last⟩]) ∧
      Parts.Fit Sample.wallet Sample.guarded p ∧
      p.IsMint Sample.wallet Sample.target Sample.guarded t ∧
      List.Forall₂ Instruction.Revokes p.approvals u.instructions := by
  obtain ⟨hoffered, hsucceeds, hsends, hok⟩ := Sample.guardedMint_spec
  have hrun := Sample.runs_guardedMint Sample.collectionAccount
  obtain ⟨signature, ho⟩ := exists_eq_ok_of_isOk hok
  rw [ho] at hrun
  obtain ⟨_, _, hsent, hmints⟩ := exists_of_any_sendsMint hsends
  obtain ⟨m, -, -, hoffers, -, -⟩ := prepared_of_mints hrun hsent hmints
  obtain rfl := Option.some.inj (hoffers.offered?_eq.symm.trans hoffered)
  obtain ⟨first, p, rest, hes, hfit, hends⟩ :=
    mintOne_shape hrun hoffers fun e he _ => hsucceeds e he
  have hpays : p.payment.approvals ≠ [] := by
    have hpayment : Extras.OfToken Sample.wallet _ (some (Ledger.newKey 8)) p.paymentEvents
        p.payment := hfit.payment
    generalize p.payment = payment at *
    generalize p.paymentEvents = fs at *
    cases hpayment
    exact List.cons_ne_nil _ _
  rcases hends with ⟨_, _, -, -, -, -, ho⟩ | ⟨t, revocations, hmint, hrevokes, hsending, -⟩
  · cases ho
  · cases hsending with
    | minted _ hnone =>
      rw [hnone, List.forall₂_nil_right_iff] at hrevokes
      exact absurd (List.append_eq_nil_iff.1 hrevokes).2 hpays
    | cleaned _ last hne =>
      exact ⟨_, first, p, t, ⟨revocations, []⟩, signature, last, hrun, hoffers, hsucceeds, hes,
        hfit, hmint, hrevokes⟩

/-- What is read of the collection has to be one. If there is anything else in its account, then
nothing is sent, although the machine has items left and the cluster has answered whatever it was
asked. -/
theorem mintOne_shape_unreadable :
    ∃ (es : List Event) (first : Event) (p : Parts) (bs : Bytes) (fault : LayoutFault),
      (mintOne Sample.wallet Sample.target).Runs es (.error (.account (.layout fault))) ∧
      Offers Sample.target Sample.guarded es ∧ (∀ e ∈ es, e.succeeds = true) ∧
      es = first :: p.events Sample.target ∧ p.collection = some bs ∧ bs ≠ [] ∧
      es.any Event.sendsMint = false := by
  have hrun := Sample.runs_guardedMint [1]
  have hchecks : offered? (Sample.guardedMint [1]).1 = some Sample.guarded ∧
      (∀ e ∈ (Sample.guardedMint [1]).1, e.succeeds = true) ∧
      (Sample.guardedMint [1]).1.any Event.sendsMint = false ∧
      (Sample.guardedMint [1]).2.isOk = false := by decide +kernel
  obtain ⟨hoffered, hsucceeds, hsends, hfails⟩ := hchecks
  obtain ⟨e, ho⟩ := exists_eq_error_of_isOk hfails
  rw [ho] at hrun
  have hoffers := offers_of_offered? hrun hoffered (by decide)
  obtain ⟨first, p, rest, hes, -, hends⟩ := mintOne_parts hrun hoffers fun e he _ => hsucceeds e he
  rcases hends with ⟨bs, fault, hcollection, hne, -, rfl, ho'⟩ | ⟨t, -, hsending⟩
  · cases ho'
    rw [List.append_nil] at hes
    exact ⟨_, first, p, bs, fault, hrun, hoffers, hsucceeds, hes, hcollection, hne, hsends⟩
  · obtain ⟨_, ho'⟩ := hsending.exists_ok fun e he => hsucceeds e (hes ▸ by simp [he])
    cases ho'

end Minting

end CandyDrop
