import CandyDrop.Mint.Command
import CandyDrop.Proofs.Cluster.Effects
import CandyDrop.Proofs.Script.Quiet

/-!
# The transaction of a mint

What a mint sends is put together from parts. The whitelist and the token that a machine is paid in
each bring accounts, approvals and keys that are made for this mint (`Extras.OfWhitelist`,
`Extras.OfToken`), and what is approved is also to be taken back (`Extras.Fits`). `Prepared` is what
is there when everything was asked for: the transaction, and what it needs beyond the item.
-/

namespace CandyDrop

/-! ## Transactions that mint -/

/-- One of the instructions is the call that mints an item. -/
def Transaction.Mints (t : Transaction) : Prop :=
  ∃ i ∈ t.instructions, (i.arguments? "mint_nft").isSome = true

instance (t : Transaction) : Decidable t.Mints :=
  inferInstanceAs (Decidable (∃ i ∈ t.instructions, _))

/-- The transaction takes back what was approved, and does nothing else. -/
def Transaction.TakesBack (payer : Address) (t : Transaction) : Prop :=
  ∀ i ∈ t.instructions, ∃ account, i = Instruction.revoke account payer

theorem Transaction.TakesBack.not_mints {payer : Address} {t : Transaction}
    (h : t.TakesBack payer) : ¬t.Mints := by
  rintro ⟨i, hi, hmints⟩
  obtain ⟨account, rfl⟩ := h i hi
  rw [Instruction.arguments?_of_program _ (show Address.tokenProgram ≠ _ by decide)] at hmints
  cases hmints

/-- To mint from the machine, tokens are approved for the time of the mint. -/
def Machine.Approves (m : Machine) : Prop :=
  m.tokenMint ≠ none ∨ ∃ w, m.data.whitelist = some w ∧ w.mode = .burnEveryTime

theorem Machine.Collection.quiet_get? (address : Address) : (Collection.get? address).Quiet := by
  refine (Script.quiet_account _).bind fun content => ?_
  split
  · trivial
  · trivial
  · exact (Script.only_ofExcept fun _ _ => id).bind fun _ => trivial

namespace Minting

open Script

variable {payer machine : Address} {m : Machine} {es : List Event} {t : Transaction}
  {extras : Extras}

/-! ## The parts of a mint -/

namespace Extras

/-- The part of the whitelist, and what is asked for it. -/
inductive OfWhitelist (payer : Address) : Option Machine.Whitelist → List Event → Extras → Prop
  /-- There is no whitelist. -/
  | absent : OfWhitelist payer .none [] none
  /-- The token only has to be there. -/
  | shown {w : Machine.Whitelist} (hmode : w.mode = .neverBurn) :
      OfWhitelist payer (some w) []
        { none with accounts := [.writes (Address.associatedToken payer w.mint)] }
  /-- The token would be burnt, but there is no account with one. -/
  | unheld {w : Machine.Whitelist} (hmode : w.mode = .burnEveryTime) (burner : Address) :
      OfWhitelist payer (some w)
        [⟨.freshKey, burner⟩, ⟨.account (Address.associatedToken payer w.mint), .ok .none⟩]
        { none with
          accounts :=
            [.writes (Address.associatedToken payer w.mint), .writes w.mint, .signs burner]
          signers := [burner] }
  /-- The token is burnt, by a key that this is approved for. -/
  | burnt {w : Machine.Whitelist} (hmode : w.mode = .burnEveryTime) (burner : Address)
      (bs : Bytes) :
      OfWhitelist payer (some w)
        [⟨.freshKey, burner⟩, ⟨.account (Address.associatedToken payer w.mint), .ok (some bs)⟩]
        { accounts :=
            [.writes (Address.associatedToken payer w.mint), .writes w.mint, .signs burner]
          approvals :=
            [Instruction.approve (Address.associatedToken payer w.mint) burner payer 1]
          revocations := [Instruction.revoke (Address.associatedToken payer w.mint) payer]
          signers := [burner] }

/-- The part of the token that the machine is paid in, and what is asked for it. -/
inductive OfToken (payer : Address) (price : UInt64) :
    Option Address → List Event → Extras → Prop
  /-- The machine is not paid in a token. -/
  | absent : OfToken payer price .none [] none
  /-- The price is taken by a key that this is approved for. -/
  | paid (token key : Address) :
      OfToken payer price (some token) [⟨.freshKey, key⟩]
        { accounts := [.writes (Address.associatedToken payer token), .signs key]
          approvals :=
            [Instruction.approve (Address.associatedToken payer token) key payer price]
          revocations := [Instruction.revoke (Address.associatedToken payer token) payer]
          signers := [key] }

theorem ofWhitelist_runs {w : Option Machine.Whitelist} {extras : Extras}
    (h : (ofWhitelist payer w).Runs es (.ok extras)) : OfWhitelist payer w es extras := by
  cases w with
  | none =>
    cases h
    exact .absent
  | some w =>
    cases hmode : w.mode with
    | neverBurn =>
      simp only [ofWhitelist, hmode, runs_done_iff] at h
      obtain ⟨rfl, ho⟩ := h
      cases ho
      exact .shown hmode
    | burnEveryTime =>
      simp only [ofWhitelist, hmode] at h
      obtain ⟨burner, _, _, rfl, hburner, h₁⟩ := runs_bind_ok_iff.1 h
      obtain ⟨_, rfl, ho⟩ := runs_request_iff.1 hburner
      cases ho
      obtain ⟨content, _, _, rfl, hcontent, hend⟩ := runs_bind_ok_iff.1 h₁
      obtain ⟨answer, _, rfl, hanswer⟩ := runs_ask_iff.1 hcontent
      obtain ⟨rfl, ho⟩ := runs_ofExcept_iff.1 hanswer
      obtain rfl := mapError_eq_ok_iff.1 ho.symm
      obtain ⟨rfl, ho⟩ := runs_done_iff.1 hend
      cases ho
      cases content with
      | none => exact .unheld hmode burner
      | some bs => exact .burnt hmode burner bs

theorem ofToken_runs {price : UInt64} {token : Option Address} {extras : Extras}
    (h : (ofToken payer price token).Runs es (.ok extras)) : OfToken payer price token es extras := by
  cases token with
  | none =>
    cases h
    exact .absent
  | some token =>
    obtain ⟨key, _, _, rfl, hkey, hend⟩ := runs_bind_ok_iff.1 h
    obtain ⟨_, rfl, ho⟩ := runs_request_iff.1 hkey
    cases ho
    obtain ⟨rfl, ho⟩ := runs_done_iff.1 hend
    cases ho
    exact .paid token key

theorem ofMachine_runs (h : (ofMachine payer m).Runs es (.ok extras)) :
    ∃ es₁ es₂ whitelist token, es = es₁ ++ es₂ ∧ OfWhitelist payer m.data.whitelist es₁ whitelist ∧
      OfToken payer m.data.price m.tokenMint es₂ token ∧
      extras = ((ofGatekeeper payer m.data.gatekeeper).append whitelist).append token := by
  obtain ⟨whitelist, es₁, _, rfl, hwhitelist, h₁⟩ := runs_bind_ok_iff.1 h
  obtain ⟨token, es₂, _, rfl, htoken, hend⟩ := runs_bind_ok_iff.1 h₁
  obtain ⟨rfl, ho⟩ := runs_done_iff.1 hend
  cases ho
  exact ⟨es₁, es₂, whitelist, token, by rw [List.append_nil], ofWhitelist_runs hwhitelist,
    ofToken_runs htoken, rfl⟩

theorem OfWhitelist.revokes {w : Option Machine.Whitelist} (h : OfWhitelist payer w es extras) :
    ∀ i ∈ extras.revocations, (∃ account, i = Instruction.revoke account payer) ∧
      ∃ w', w = some w' ∧ w'.mode = .burnEveryTime := by
  cases h with
  | absent => simp [none]
  | shown hmode => simp [none]
  | unheld hmode burner => simp [none]
  | burnt hmode burner bs => exact fun i hi => ⟨⟨_, List.mem_singleton.1 hi⟩, _, rfl, hmode⟩

theorem OfToken.revokes {price : UInt64} {token : Option Address}
    (h : OfToken payer price token es extras) :
    ∀ i ∈ extras.revocations, (∃ account, i = Instruction.revoke account payer) ∧
      token ≠ Option.none := by
  cases h with
  | absent => simp [none]
  | paid token key => exact fun i hi => ⟨⟨_, List.mem_singleton.1 hi⟩, Option.some_ne_none _⟩

theorem revocations_ofGatekeeper (payer : Address) (g : Option Machine.Gatekeeper) :
    (ofGatekeeper payer g).revocations = [] := by
  cases g <;> rfl

/-- What is taken back after a mint of this machine. -/
structure Fits (payer : Address) (m : Machine) (extras : Extras) : Prop where
  revokes : ∀ i ∈ extras.revocations, ∃ account, i = Instruction.revoke account payer
  approves : extras.revocations ≠ [] → m.Approves

theorem quiet_ofMachine (payer : Address) (m : Machine) : (ofMachine payer m).Quiet := by
  refine Only.bind ?_ fun whitelist => Only.bind ?_ fun token => only_done _
  · unfold ofWhitelist
    split
    · trivial
    · split
      · trivial
      · exact (only_request trivial).bind fun _ => (quiet_account _).bind fun _ => only_done _
  · unfold ofToken
    split
    · trivial
    · exact (only_request trivial).bind fun _ => only_done _

end Extras

/-! ## What is prepared -/

/-- What a mint sends, and what it needs beyond the item. -/
def preparing (payer machine : Address) (m : Machine) : Script (Transaction × Extras) := do
  let mint ← Script.request .freshKey
  let rent ← Script.rent Token.mintSize
  let extras ← Extras.ofMachine payer m
  let collection ← Machine.Collection.get? (Address.machineCollection machine).1
  return (transaction payer machine mint m rent extras collection, extras)

theorem mintItem_eq_preparing_bind (payer machine : Address) (m : Machine) :
    mintItem payer machine m = preparing payer machine m >>= fun p => do
      let signature ← Script.submit p.1
      cleanUp p.2
      return signature := by
  simp only [mintItem, preparing, Script.bind_assoc, pure_eq_done, done_bind]

theorem quiet_preparing (payer machine : Address) (m : Machine) :
    (preparing payer machine m).Quiet := by
  refine (only_request trivial).bind fun mint => ?_
  refine (quiet_rent _).bind fun rent => ?_
  refine (Extras.quiet_ofMachine payer m).bind fun extras => ?_
  exact (Machine.Collection.quiet_get? _).bind fun _ => only_done _

/-- What a mint has prepared: its transaction, and what it needs beyond the item. -/
inductive Prepared (payer machine : Address) (m : Machine) :
    List Event → Transaction → Extras → Prop
  | mk (mint : Address) (rent : UInt64) (collection : Option Machine.Collection)
      {es₁ es₂ es₃ : List Event} {whitelist token extras : Extras}
      (hwhitelist : Extras.OfWhitelist payer m.data.whitelist es₁ whitelist)
      (htoken : Extras.OfToken payer m.data.price m.tokenMint es₂ token)
      (hextras : extras =
        ((Extras.ofGatekeeper payer m.data.gatekeeper).append whitelist).append token) :
      Prepared payer machine m
        (⟨.freshKey, mint⟩ :: ⟨.rent Token.mintSize, .ok rent⟩ :: (es₁ ++ es₂ ++ es₃))
        (transaction payer machine mint m rent extras collection) extras

theorem prepared_of_runs {t : Transaction} {extras : Extras}
    (h : (preparing payer machine m).Runs es (.ok (t, extras))) :
    Prepared payer machine m es t extras := by
  obtain ⟨mint, _, _, rfl, hmint, h₁⟩ := runs_bind_ok_iff.1 h
  obtain ⟨_, rfl, ho⟩ := runs_request_iff.1 hmint
  cases ho
  obtain ⟨rent, _, _, rfl, hrent, h₂⟩ := runs_bind_ok_iff.1 h₁
  obtain ⟨answer, _, rfl, hanswer⟩ := runs_ask_iff.1 hrent
  obtain ⟨rfl, ho⟩ := runs_ofExcept_iff.1 hanswer
  obtain rfl := mapError_eq_ok_iff.1 ho.symm
  obtain ⟨_, _, _, rfl, hextras, h₃⟩ := runs_bind_ok_iff.1 h₂
  obtain ⟨collection, es₃, _, rfl, -, hend⟩ := runs_bind_ok_iff.1 h₃
  obtain ⟨rfl, ho⟩ := runs_done_iff.1 hend
  cases ho
  obtain ⟨es₁, es₂, whitelist, token, rfl, hwhitelist, htoken, rfl⟩ := Extras.ofMachine_runs hextras
  have hprepared : Prepared payer machine m
      (⟨.freshKey, mint⟩ :: ⟨.rent Token.mintSize, .ok rent⟩ :: (es₁ ++ es₂ ++ es₃)) _ _ :=
    .mk mint rent collection hwhitelist htoken rfl
  simpa using hprepared

theorem Prepared.mints (h : Prepared payer machine m es t extras) : t.Mints := by
  obtain ⟨mint, rent, collection, -, -, -⟩ := h
  refine ⟨Instruction.mintItem machine payer m.wallet mint extras.accounts, ?_, ?_⟩
  · exact List.mem_append_right _ List.mem_cons_self
  · rw [Instruction.mintItem, Instruction.arguments?_machineCall_self]
    rfl

theorem Prepared.fits (h : Prepared payer machine m es t extras) : extras.Fits payer m := by
  obtain @⟨_, _, _, _, _, _, whitelist, token, _, hwhitelist, htoken, hextras⟩ := h
  have hrevocations : extras.revocations = whitelist.revocations ++ token.revocations := by
    rw [hextras, Extras.append, Extras.append, Extras.revocations_ofGatekeeper, List.nil_append]
  have hrevokes : ∀ i ∈ extras.revocations,
      (∃ account, i = Instruction.revoke account payer) ∧ m.Approves := by
    rw [hrevocations, List.forall_mem_append]
    exact ⟨fun i hi => (hwhitelist.revokes i hi).imp_right .inr,
      fun i hi => (htoken.revokes i hi).imp_right .inl⟩
  refine ⟨fun i hi => (hrevokes i hi).1, fun hne => ?_⟩
  obtain ⟨i, hi⟩ := List.exists_mem_of_ne_nil _ hne
  exact (hrevokes i hi).2

end Minting

end CandyDrop
