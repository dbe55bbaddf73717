import CandyDrop.Proofs.Mint.Outcome
import CandyDrop.Proofs.Token.Delegates

/-!
# The delegates of a mint

The call that mints takes the price, and burns a whitelist token, with keys that the payer has
approved in the same transaction. The program finds these keys by their positions behind the
accounts that every such call has (`burnAuthority?`, `transferAuthority?`).

When the call is reached, the key that takes the price is the delegate of the account that pays, for
the price. The key that burns is the delegate of the account with the whitelist token only if that
is another account. If the machine is paid in the very token that is burnt, then the approval of the
price replaces that of the burn, and nothing can be burnt (`delegations_in_force`).
-/

namespace CandyDrop

namespace Transaction

/-- The call that mints an item. -/
def mintCall? (t : Transaction) : Option Instruction :=
  t.instructions.find? fun i => (i.arguments? "mint_nft").isSome

/-- What is carried out before the call that mints. -/
def beforeMint (t : Transaction) : List Instruction :=
  t.instructions.takeWhile fun i => !(i.arguments? "mint_nft").isSome

theorem mintCall?_beforeMint_eq {before : List Instruction} {call : Instruction}
    (after : List Instruction) (signers : List Address)
    (hbefore : ∀ i ∈ before, i.arguments? "mint_nft" = none)
    (hcall : (call.arguments? "mint_nft").isSome = true) :
    (⟨before ++ call :: after, signers⟩ : Transaction).mintCall? = some call ∧
      (⟨before ++ call :: after, signers⟩ : Transaction).beforeMint = before := by
  constructor
  · have hnone : before.find? (fun i => (i.arguments? "mint_nft").isSome) = none :=
      List.find?_eq_none.2 fun i hi => by simp [hbefore i hi]
    rw [mintCall?, List.find?_append, hnone, Option.none_or]
    exact List.find?_cons_of_pos hcall
  · have hstops : (call :: after).takeWhile (fun i => !(i.arguments? "mint_nft").isSome) = [] :=
      List.takeWhile_cons_of_neg (by simp [hcall])
    rw [beforeMint, List.takeWhile_append_of_pos fun i hi => by simp [hbefore i hi], hstops,
      List.append_nil]

end Transaction

namespace Event

/-- The key that is made. -/
def newKey? : Event → Option Address
  | ⟨.freshKey, key⟩ => some key
  | _ => none

/-- If this address is read, then there is an account. -/
def showsAccount (address : Address) : Event → Bool
  | ⟨.account _, .ok (some _)⟩ => true
  | ⟨.account a, _⟩ => a != address
  | _ => true

end Event

namespace Minting

/-! ## The keys that the program goes by -/

/-- The accounts of a call that mints which do not depend on the settings. -/
def fixedAccounts : Nat := 16

/-- The accounts that the gatekeeper adds to the call. -/
def gatekeeperAccounts : Option Machine.Gatekeeper → Nat
  | none => 0
  | some g => if g.expireOnUse then 3 else 1

/-- The accounts that the whitelist adds to the call. -/
def whitelistAccounts : Option Machine.Whitelist → Nat
  | none => 0
  | some w => if w.mode = .burnEveryTime then 3 else 1

/-- The key that the call burns a whitelist token with. -/
def burnAuthority? (m : Machine) (call : Instruction) : Option Address :=
  call.accounts[fixedAccounts + gatekeeperAccounts m.data.gatekeeper + 2]?.map AccountUse.address

/-- The key that the call takes the price with. -/
def transferAuthority? (m : Machine) (call : Instruction) : Option Address :=
  call.accounts[fixedAccounts + gatekeeperAccounts m.data.gatekeeper
    + whitelistAccounts m.data.whitelist + 1]?.map AccountUse.address

/-! ## Delegations in force -/

section

variable (payer : Address) (m : Machine)

/-- If the machine is paid in a token, then the call can take the price. -/
def PaymentInForce (d : Delegations) (call : Instruction) : Prop :=
  ∀ token, m.tokenMint = some token → ∃ key amount,
    transferAuthority? m call = some key ∧
      d (Address.associatedToken payer token) = some ⟨key, amount⟩ ∧ m.data.price ≤ amount

/-- If the machine burns a whitelist token, then the call can. -/
def BurnInForce (d : Delegations) (call : Instruction) : Prop :=
  ∀ w, m.data.whitelist = some w → w.mode = .burnEveryTime → ∃ key amount,
    burnAuthority? m call = some key ∧
      d (Address.associatedToken payer w.mint) = some ⟨key, amount⟩ ∧ 1 ≤ amount

/-- The token that is burnt is in the account that pays. -/
def SharesAccount : Prop :=
  ∃ w token, m.data.whitelist = some w ∧ w.mode = .burnEveryTime ∧ m.tokenMint = some token ∧
    Address.associatedToken payer w.mint = Address.associatedToken payer token

/-- There is an account for the whitelist token. -/
def HasWhitelistAccount (es : List Event) : Prop :=
  ∀ w, m.data.whitelist = some w →
    ∀ e ∈ es, e.showsAccount (Address.associatedToken payer w.mint) = true

end

variable {payer machine : Address} {m : Machine} {es : List Event} {t : Transaction}
  {extras : Extras}

/-! ## What comes before the call -/

theorem Extras.length_accounts_ofGatekeeper (payer : Address) (g : Option Machine.Gatekeeper) :
    (ofGatekeeper payer g).accounts.length = gatekeeperAccounts g := by
  cases g with
  | none => rfl
  | some g => cases hexpires : g.expireOnUse <;> simp [ofGatekeeper, gatekeeperAccounts, hexpires]

theorem Extras.approvals_ofGatekeeper (payer : Address) (g : Option Machine.Gatekeeper) :
    (ofGatekeeper payer g).approvals = [] := by
  cases g <;> rfl

theorem Extras.OfWhitelist.length_accounts {w : Option Machine.Whitelist}
    (h : OfWhitelist payer w es extras) : extras.accounts.length = whitelistAccounts w := by
  cases h with
  | absent => rfl
  | shown hmode => simp [whitelistAccounts, hmode]
  | unheld hmode burner => simp [whitelistAccounts, hmode]
  | burnt hmode burner bs => simp [whitelistAccounts, hmode]

theorem Extras.OfWhitelist.approves {w : Option Machine.Whitelist}
    (h : OfWhitelist payer w es extras) :
    ∀ i ∈ extras.approvals, ∃ account key amount,
      i = Instruction.approve account key payer amount := by
  cases h with
  | absent => simp [none]
  | shown hmode => simp [none]
  | unheld hmode burner => simp [none]
  | burnt hmode burner bs => exact fun i hi => ⟨_, _, _, List.mem_singleton.1 hi⟩

theorem Extras.OfToken.approves {price : UInt64} {token : Option Address}
    (h : OfToken payer price token es extras) :
    ∀ i ∈ extras.approvals, ∃ account key amount,
      i = Instruction.approve account key payer amount := by
  cases h with
  | absent => simp [none]
  | paid token key => exact fun i hi => ⟨_, _, _, List.mem_singleton.1 hi⟩

theorem arguments?_approve (name : String) (account key owner : Address) (amount : UInt64) :
    (Instruction.approve account key owner amount).arguments? name = none :=
  Instruction.arguments?_of_program name (show Address.tokenProgram ≠ _ by decide)

/-- What makes the new mint is neither a call that mints nor about delegates. -/
theorem newToken_spec (payer mint : Address) (rent : UInt64) :
    ∀ i ∈ newToken payer mint rent, i.arguments? "mint_nft" = none ∧ i.KeepsDelegations := by
  have hprograms : Address.tokenProgram ≠ Address.candyMachineProgram ∧
      Address.associatedTokenProgram ≠ Address.candyMachineProgram := by decide
  have hothers : Address.systemProgram ≠ Address.tokenProgram ∧
      Address.associatedTokenProgram ≠ Address.tokenProgram := by decide
  simp only [newToken, List.forall_mem_cons, List.not_mem_nil, false_implies, implies_true,
    and_true]
  refine ⟨⟨?_, ?_⟩, ⟨?_, ?_⟩, ⟨?_, ?_⟩, ?_, ?_⟩
  · exact Instruction.arguments?_createAccount ..
  · exact Instruction.keepsDelegations_of_program hothers.1
  · exact Instruction.arguments?_of_program _ hprograms.1
  · exact Instruction.keepsDelegations_of_head? (by simp [Instruction.initializeMint])
  · exact Instruction.arguments?_of_program _ hprograms.2
  · exact Instruction.keepsDelegations_of_program hothers.2
  · exact Instruction.arguments?_of_program _ hprograms.1
  · exact Instruction.keepsDelegations_of_head? (by simp [Instruction.mintTo])

/-! ## Delegations at the call -/

theorem Prepared.approves (h : Prepared payer machine m es t extras) :
    ∀ i ∈ extras.approvals, ∃ account key amount,
      i = Instruction.approve account key payer amount := by
  obtain ⟨mint, rent, collection, hwhitelist, htoken, rfl⟩ := h
  simp only [Extras.append, Extras.approvals_ofGatekeeper, List.nil_append, List.forall_mem_append]
  exact ⟨hwhitelist.approves, htoken.approves⟩

/-- The call of a mint that was prepared, and the delegations when it is reached: those that the
approvals have left. -/
theorem Prepared.mintCall?_eq (h : Prepared payer machine m es t extras) :
    ∃ mint, t.mintCall? =
        some (Instruction.mintItem machine payer m.wallet mint extras.accounts) ∧
      ∀ d : Delegations, d.after t.beforeMint = d.after extras.approvals := by
  have happroves := h.approves
  obtain ⟨mint, rent, collection, -, -, -⟩ := h
  have hbefore : ∀ i ∈ newToken payer mint rent ++ extras.approvals,
      i.arguments? "mint_nft" = none := by
    rw [List.forall_mem_append]
    refine ⟨fun i hi => (newToken_spec payer mint rent i hi).1, fun i hi => ?_⟩
    obtain ⟨account, key, amount, rfl⟩ := happroves i hi
    exact arguments?_approve ..
  have hcall : ((Instruction.mintItem machine payer m.wallet mint
      extras.accounts).arguments? "mint_nft").isSome = true := by
    rw [Instruction.mintItem, Instruction.arguments?_machineCall_self]
    rfl
  obtain ⟨hmint, hprefix⟩ := Transaction.mintCall?_beforeMint_eq
    (joining payer machine mint m collection) (mint :: extras.signers) hbefore hcall
  refine ⟨mint, hmint, fun d => ?_⟩
  rw [transaction, hprefix, Delegations.after_append,
    Delegations.after_of_forall_keeps fun i hi => (newToken_spec payer mint rent i hi).2]

/-- Behind the accounts that every call has come those of the settings. -/
theorem getElem?_accounts_mintItem (machine payer wallet mint : Address)
    (accounts : List AccountUse) (k : Nat) :
    (Instruction.mintItem machine payer wallet mint accounts).accounts[fixedAccounts + k]? =
      accounts[k]? := by
  rw [Instruction.mintItem, Instruction.machineCall, List.getElem?_append_right]
  · exact congrArg (accounts[·]?) (Nat.add_sub_cancel_left ..)
  · exact Nat.le_add_right ..

theorem getElem?_append_length_add {α : Type} (l r : List α) (k : Nat) :
    (l ++ r)[l.length + k]? = r[k]? := by
  rw [List.getElem?_append_right (Nat.le_add_right ..), Nat.add_sub_cancel_left]

/-- The key that takes the price is the one that was made for the payment. -/
theorem transferAuthority?_mintItem {w token : Extras}
    (hwhitelist : Extras.OfWhitelist payer m.data.whitelist es w)
    (hextras : extras = ((Extras.ofGatekeeper payer m.data.gatekeeper).append w).append token)
    (machine mint : Address) :
    transferAuthority? m (Instruction.mintItem machine payer m.wallet mint extras.accounts) =
      token.accounts[1]?.map AccountUse.address := by
  have hlength : gatekeeperAccounts m.data.gatekeeper + whitelistAccounts m.data.whitelist =
      ((Extras.ofGatekeeper payer m.data.gatekeeper).append w).accounts.length := by
    rw [Extras.append, List.length_append, Extras.length_accounts_ofGatekeeper,
      hwhitelist.length_accounts]
  rw [transferAuthority?, Nat.add_assoc, Nat.add_assoc, getElem?_accounts_mintItem,
    ← Nat.add_assoc, hlength, hextras, Extras.append, getElem?_append_length_add]

/-- The key that burns is the one that was made for the whitelist. -/
theorem burnAuthority?_mintItem {w token : Extras}
    (hextras : extras = ((Extras.ofGatekeeper payer m.data.gatekeeper).append w).append token)
    (machine mint : Address) :
    burnAuthority? m (Instruction.mintItem machine payer m.wallet mint extras.accounts) =
      (w.accounts ++ token.accounts)[2]?.map AccountUse.address := by
  rw [burnAuthority?, Nat.add_assoc, getElem?_accounts_mintItem, hextras, Extras.append,
    Extras.append, List.append_assoc, ← Extras.length_accounts_ofGatekeeper payer,
    getElem?_append_length_add]

/-- The approvals of a mint are those for the whitelist and then those for the payment. -/
theorem approvals_eq {w token : Extras}
    (hextras : extras = ((Extras.ofGatekeeper payer m.data.gatekeeper).append w).append token) :
    extras.approvals = w.approvals ++ token.approvals := by
  rw [hextras, Extras.append, Extras.append, Extras.approvals_ofGatekeeper, List.nil_append]

/-- The payment is approved last, so its key is the delegate whatever was approved before. -/
theorem Prepared.paymentInForce (h : Prepared payer machine m es t extras) (mint : Address)
    (d : Delegations) :
    PaymentInForce payer m (d.after extras.approvals)
      (Instruction.mintItem machine payer m.wallet mint extras.accounts) := by
  obtain ⟨_, rent, collection, hwhitelist, htoken, hextras⟩ := h
  intro token hpaid
  rw [hpaid] at htoken
  cases htoken with
  | paid _ key =>
    refine ⟨key, m.data.price, ?_, ?_, UInt64.le_refl _⟩
    · rw [transferAuthority?_mintItem hwhitelist hextras]
      rfl
    · rw [approvals_eq hextras, Delegations.after_append, Delegations.after_approve,
        Function.update_self]

/-- The key that was made to burn a token of an account that exists, and its approval. -/
theorem Extras.OfWhitelist.burner {w : Machine.Whitelist}
    (h : OfWhitelist payer (some w) es extras) (hmode : w.mode = .burnEveryTime)
    (haccount : ∀ e ∈ es, e.showsAccount (Address.associatedToken payer w.mint) = true) :
    ∃ burner, (∀ rest : List AccountUse,
        (extras.accounts ++ rest)[2]?.map AccountUse.address = some burner) ∧
      extras.approvals =
        [Instruction.approve (Address.associatedToken payer w.mint) burner payer 1] ∧
      es.filterMap Event.newKey? = [burner] := by
  cases h with
  | shown hmode' => simp [hmode] at hmode'
  | unheld _ burner => simp [Event.showsAccount] at haccount
  | burnt _ burner bs => exact ⟨burner, fun _ => rfl, rfl, rfl⟩

/-- The key that burns is made and approved before that of the payment, if there is one. -/
theorem Prepared.burner (h : Prepared payer machine m es t extras)
    (haccount : HasWhitelistAccount payer m es) {w : Machine.Whitelist}
    (hw : m.data.whitelist = some w) (hmode : w.mode = .burnEveryTime) (mint : Address)
    (d : Delegations) :
    ∃ burner payment fs, Extras.OfToken payer m.data.price m.tokenMint fs payment ∧
      burnAuthority? m (Instruction.mintItem machine payer m.wallet mint extras.accounts) =
        some burner ∧
      d.after extras.approvals = Delegations.after (Function.update d
        (Address.associatedToken payer w.mint) (some ⟨burner, 1⟩)) payment.approvals ∧
      (burner :: fs.filterMap Event.newKey?).Sublist (es.filterMap Event.newKey?) := by
  obtain @⟨_, _, _, es₁, es₂, es₃, whitelist, payment, _, hwhitelist, htoken, hextras⟩ := h
  rw [hw] at hwhitelist
  obtain ⟨burner, hthird, happroval, hkey⟩ := hwhitelist.burner hmode fun e he =>
    haccount w hw e (by simp [he])
  refine ⟨burner, payment, es₂, htoken, (burnAuthority?_mintItem hextras ..).trans (hthird _),
    ?_, ?_⟩
  · rw [approvals_eq hextras, happroval, Delegations.after_append, Delegations.after_approve]
  · rw [← List.singleton_append, ← hkey, ← List.filterMap_append]
    exact (((List.sublist_append_left (es₁ ++ es₂) es₃).cons _).cons _).filterMap Event.newKey?

/-- The key that burns stays the delegate if the payment is from another account. -/
theorem Prepared.burnInForce (h : Prepared payer machine m es t extras)
    (haccount : HasWhitelistAccount payer m es) (hseparate : ¬SharesAccount payer m)
    (mint : Address) (d : Delegations) :
    BurnInForce payer m (d.after extras.approvals)
      (Instruction.mintItem machine payer m.wallet mint extras.accounts) := by
  intro w hw hmode
  obtain ⟨burner, payment, fs, hpayment, hauthority, hafter, -⟩ :=
    h.burner haccount hw hmode mint d
  refine ⟨burner, 1, hauthority, ?_, UInt64.le_refl _⟩
  rw [hafter]
  cases htoken : m.tokenMint with
  | none =>
    rw [htoken] at hpayment
    cases hpayment
    rw [Extras.none, Delegations.after, List.foldl_nil, Function.update_self]
  | some token =>
    rw [htoken] at hpayment
    have hne : Address.associatedToken payer w.mint ≠ Address.associatedToken payer token :=
      fun hsame => hseparate ⟨w, token, hw, hmode, htoken, hsame⟩
    cases hpayment
    rw [Delegations.after_approve, Function.update_of_ne hne, Function.update_self]

/-- If the payment is from the same account, then its key is the delegate, and this key was made
after the one that burns. -/
theorem Prepared.not_burnInForce (h : Prepared payer machine m es t extras)
    (haccount : HasWhitelistAccount payer m es) (hshares : SharesAccount payer m)
    (hkeys : (es.filterMap Event.newKey?).Nodup) (mint : Address) (d : Delegations) :
    ¬BurnInForce payer m (d.after extras.approvals)
      (Instruction.mintItem machine payer m.wallet mint extras.accounts) := by
  obtain ⟨w, token, hw, hmode, htoken, hsame⟩ := hshares
  intro hburns
  obtain ⟨burner, payment, fs, hpayment, hauthority, hafter, hmade⟩ :=
    h.burner haccount hw hmode mint d
  obtain ⟨authority, amount, hauthority', hdelegate, -⟩ := hburns w hw hmode
  rw [htoken] at hpayment
  cases hpayment with
  | paid _ key =>
    rw [hafter, Delegations.after_approve, hsame, Function.update_self] at hdelegate
    cases hdelegate
    obtain rfl := Option.some.inj (hauthority.symm.trans hauthority')
    exact (List.nodup_cons.1 (hkeys.sublist hmade)).1 (List.mem_singleton_self burner)

/-! ## The mint of a run -/

/-- A transaction of a run that mints is the one that was prepared for the machine that was read. -/
theorem prepared_of_mints {o : Except Failure Signature} {answer : Except ClusterFault Signature}
    (h : (mintOne payer machine).Runs es o) (ht : ⟨.submit t, answer⟩ ∈ es) (hmints : t.Mints) :
    ∃ m es₁ extras, Offers machine m es ∧ es₁.Sublist es ∧
      Prepared payer machine m es₁ t extras := by
  rcases mintOne_sends h with hquiet | ⟨m, es₁, u, extras, hoffers, hsub, hprepared, hsends⟩
  · exact (hquiet _ ht).elim
  · rcases hsends _ ht with hquiet | hmint | hrevokes
    · exact hquiet.elim
    · cases hmint
      exact ⟨m, es₁, extras, hoffers, hsub, hprepared⟩
    · cases hrevokes
      exact absurd hmints (Transaction.TakesBack.not_mints hprepared.fits.revokes)

theorem exists_of_any_sendsMint (h : es.any Event.sendsMint = true) :
    ∃ t answer, ⟨.submit t, answer⟩ ∈ es ∧ t.Mints := by
  obtain ⟨e, he, hmint⟩ := List.any_eq_true.1 h
  unfold Event.sendsMint at hmint
  split at hmint
  · exact ⟨_, _, he, of_decide_eq_true hmint⟩
  · cases hmint

/-- The machine that is read first. -/
def offered? : List Event → Option Machine
  | ⟨.account _, .ok (some bs)⟩ :: _ => (Machine.ofAccount bs).toOption
  | _ => none

theorem Offers.offered?_eq (h : Offers machine m es) : offered? es = some m := by
  obtain ⟨bs, rest, rfl, hm, -⟩ := h
  rw [offered?, hm]
  rfl

/-- A mint that reads a machine with items left is offered it. -/
theorem offers_of_offered? {o : Except Failure Signature} (h : (mintOne payer machine).Runs es o)
    (hoffered : offered? es = some m) (hleft : m.itemsRedeemed < m.data.itemsAvailable) :
    Offers machine m es := by
  obtain ⟨answer, rest, rfl, -⟩ := Script.runs_ask_iff.1 h
  cases answer with
  | error fault => cases hoffered
  | ok content =>
    cases content with
    | none => cases hoffered
    | some bs =>
      change (Machine.ofAccount bs).toOption = some m at hoffered
      cases hm : Machine.ofAccount bs with
      | error e =>
        rw [hm] at hoffered
        cases hoffered
      | ok m' =>
        rw [hm] at hoffered
        cases hoffered
        exact ⟨bs, rest, rfl, hm, hleft⟩

/-- **The delegations of a mint.** When the call that mints is reached, whatever was approved
before, the key that it takes the price with is the delegate of the account that pays, for no less
than the price. If there is an account for the whitelist token, then the key that the call burns
with is the delegate of this account for a token, provided that the payment is from another account.
If it is from the same account, then the key that burns is not the delegate any more. -/
theorem delegations_in_force {o : Except Failure Signature}
    {answer : Except ClusterFault Signature} (h : (mintOne payer machine).Runs es o)
    (ht : ⟨.submit t, answer⟩ ∈ es) (hmints : t.Mints) :
    ∃ m call, Offers machine m es ∧ t.mintCall? = some call ∧
      ∀ d : Delegations,
        PaymentInForce payer m (d.after t.beforeMint) call ∧
        (HasWhitelistAccount payer m es →
          (¬SharesAccount payer m → BurnInForce payer m (d.after t.beforeMint) call) ∧
          (SharesAccount payer m → (es.filterMap Event.newKey?).Nodup →
            ¬BurnInForce payer m (d.after t.beforeMint) call)) := by
  obtain ⟨m, es₁, extras, hoffers, hsub, hprepared⟩ := prepared_of_mints h ht hmints
  obtain ⟨mint, hcall, hbefore⟩ := hprepared.mintCall?_eq
  refine ⟨m, _, hoffers, hcall, fun d => ?_⟩
  rw [hbefore]
  refine ⟨hprepared.paymentInForce mint d, fun haccount => ?_⟩
  have haccount₁ : HasWhitelistAccount payer m es₁ := fun w hw e he =>
    haccount w hw e (hsub.subset he)
  exact ⟨fun hseparate => hprepared.burnInForce haccount₁ hseparate mint d, fun hshares hkeys =>
    hprepared.not_burnInForce haccount₁ hshares (hkeys.sublist (hsub.filterMap _)) mint d⟩

/-! A machine that is paid in the token that it burns. -/

namespace Sample

def token : Address := Ledger.newKey 7

/-- A machine that burns a whitelist token and is paid in the same token. -/
def burning (token : Address) : Machine :=
  { stock (some token) with
    data :=
      { (stock (some token)).data with
        whitelist := some
          { mode := .burnEveryTime, mint := token, presale := false, discountPrice := none } } }

/-- Answers of a cluster where there is an account at every address, with a new key each time. -/
def keyed (m : Machine) (before : List Event) : (r : Request) → r.Answer
  | .freshKey => Ledger.newKey before.length
  | r => answers m (some []) true before r

/-- The transcript of a mint from this machine, and how it ends. -/
def burningMint : List Event × Except Failure Signature :=
  (mintOne wallet target).play (keyed (burning token)) []

theorem runs_burningMint : (mintOne wallet target).Runs burningMint.1 burningMint.2 :=
  Script.runs_play ..

/-- The machine is read, the account with its token is there, the keys that are made are different,
and the mint is sent. -/
theorem burningMint_spec :
    offered? burningMint.1 = some (burning token) ∧
      (∀ e ∈ burningMint.1, e.showsAccount (Address.associatedToken wallet token) = true) ∧
      (burningMint.1.filterMap Event.newKey?).Nodup ∧
      burningMint.1.any Event.sendsMint = true := by
  decide +kernel

end Sample

/-- The machine is paid in the token that it burns, there is an account with this token, and the
keys that are made are different. The transaction is sent, and when the call that mints is reached,
the key that burns is not the delegate. -/
theorem delegations_in_force_shared :
    ∃ es o t answer, (mintOne Sample.wallet Sample.target).Runs es o ∧
      ⟨.submit t, answer⟩ ∈ es ∧ t.Mints ∧
      HasWhitelistAccount Sample.wallet (Sample.burning Sample.token) es ∧
      Offers Sample.target (Sample.burning Sample.token) es ∧
      ∃ call, t.mintCall? = some call ∧ ∀ d : Delegations,
        PaymentInForce Sample.wallet (Sample.burning Sample.token) (d.after t.beforeMint) call ∧
        ¬BurnInForce Sample.wallet (Sample.burning Sample.token) (d.after t.beforeMint) call := by
  obtain ⟨hoffered, haccount, hkeys, hsends⟩ := Sample.burningMint_spec
  obtain ⟨t, answer, hsent, hmints⟩ := exists_of_any_sendsMint hsends
  obtain ⟨m, call, hoffers, hcall, hdelegates⟩ :=
    delegations_in_force Sample.runs_burningMint hsent hmints
  obtain rfl := Option.some.inj (hoffers.offered?_eq.symm.trans hoffered)
  have hthere : HasWhitelistAccount Sample.wallet (Sample.burning Sample.token)
      Sample.burningMint.1 := by
    rintro w ⟨⟩
    exact haccount
  refine ⟨_, _, t, answer, Sample.runs_burningMint, hsent, hmints, hthere, hoffers, call, hcall,
    fun d => ?_⟩
  obtain ⟨hpays, hburns⟩ := hdelegates d
  exact ⟨hpays, (hburns hthere).2 ⟨_, _, rfl, rfl, rfl, rfl⟩ hkeys⟩

end Minting

end CandyDrop
