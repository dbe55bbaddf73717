import CandyDrop.Deploy.Settings
import CandyDrop.Proofs.Token.Layout

/-!
# Where payments go

What the configuration and the accounts on the cluster say about payments. `Treasury.Resolved` says
where they go, in the native token or in one that is read from the cluster, and `Treasury.Refused`
gives the first reason why they cannot go anywhere. One of the two always holds, and the treasury is
resolved or refused accordingly, whatever the accounts hold (`Treasury.resolve_ok_iff`,
`Treasury.resolve_error_iff`).
-/

namespace CandyDrop

open Script

/-! ## Mints and token accounts on the cluster -/

/-- The answer shows this mint, and it can be used. -/
abbrev Mint.Found (m : Mint) (answer : AccountAnswer) : Prop := Account.Found Mint.Usable m answer

/-- Why the answer shows no such mint. -/
abbrev Mint.Refused (token : Address) : AccountAnswer → Failure → Prop :=
  Account.Refused (.tokenNotFound token) (Mint.Refuses token)

/-- The answer shows this token account, and it can be used. -/
abbrev TokenAccount.Found (a : TokenAccount) (answer : AccountAnswer) : Prop :=
  Account.Found TokenAccount.Usable a answer

/-- Why the answer shows no such token account. -/
abbrev TokenAccount.Refused (account : Address) : AccountAnswer → Failure → Prop :=
  Account.Refused (.tokenAccountNotFound account) (TokenAccount.Refuses account)

/-- Whether a failure comes from reading the treasury: an account that cannot be read, that is
missing, malformed or not initialized, or that holds another token. -/
def Failure.IsOfTreasury : Failure → Prop
  | .cluster _ => True
  | .account (.tokenNotFound _) | .account (.tokenSize _) | .account .tokenContent
  | .account (.tokenUninitialized _) | .account (.tokenAccountNotFound _)
  | .account (.tokenAccountUninitialized _) | .account (.treasuryMismatch _ _) => True
  | _ => False

theorem Mint.only_check (token : Address) :
    (check token).Only Request.IsAccount Failure.IsOfTreasury := by
  refine (accountCheck token).only (fun _ => trivial) trivial fun bs fault h => ?_
  cases h <;> trivial

theorem TokenAccount.only_check (account : Address) :
    (check account).Only Request.IsAccount Failure.IsOfTreasury := by
  refine (accountCheck account).only (fun _ => trivial) trivial fun bs fault h => ?_
  cases h <;> trivial

namespace Treasury

variable {config : Config} {payer : Address} {accounts : Accounts} {es : List Event}
  {o : Except Failure Treasury} {t : Treasury} {e : Failure}

/-- The account that payments in a token go to: the one of the configuration, or the one in which
the payer holds the token by default. -/
def holder (config : Config) (payer token : Address) : Address :=
  config.splTokenAccount.getD (Address.associatedToken payer token)

/-- Payments go here. -/
inductive Resolved (config : Config) (payer : Address) (accounts : Accounts) : Treasury → Prop
  | native (htoken : config.splToken = none) (haccount : config.splTokenAccount = none) :
      Resolved config payer accounts ⟨config.solTreasuryAccount.getD payer, none, 9⟩
  | token {token : Address} {mint : Mint} {account : TokenAccount}
      (htoken : config.splToken = some token) (hsol : config.solTreasuryAccount = none)
      (hmint : mint.Found (accounts token))
      (haccount : account.Found (accounts (holder config payer token)))
      (hsame : account.mint = token) :
      Resolved config payer accounts ⟨holder config payer token, some token, mint.decimals⟩

/-- Payments can go nowhere, and this is the first reason. -/
inductive Refused (config : Config) (payer : Address) (accounts : Accounts) : Failure → Prop
  | missingToken (htoken : config.splToken = none) (haccount : config.splTokenAccount.isSome) :
      Refused config payer accounts (.config .missingToken)
  | conflict (htoken : config.splToken.isSome) (hsol : config.solTreasuryAccount.isSome) :
      Refused config payer accounts (.config .treasuryConflict)
  | mint {token : Address} {e : Failure} (htoken : config.splToken = some token)
      (hsol : config.solTreasuryAccount = none) (hmint : Mint.Refused token (accounts token) e) :
      Refused config payer accounts e
  | account {token : Address} {mint : Mint} {e : Failure} (htoken : config.splToken = some token)
      (hsol : config.solTreasuryAccount = none) (hmint : mint.Found (accounts token))
      (haccount : TokenAccount.Refused (holder config payer token)
        (accounts (holder config payer token)) e) :
      Refused config payer accounts e
  | mismatch {token : Address} {mint : Mint} {account : TokenAccount}
      (htoken : config.splToken = some token) (hsol : config.solTreasuryAccount = none)
      (hmint : mint.Found (accounts token))
      (haccount : account.Found (accounts (holder config payer token)))
      (hdiffers : account.mint ≠ token) :
      Refused config payer accounts
        (.account (.treasuryMismatch (holder config payer token) token))

theorem resolved_or_refused (config : Config) (payer : Address) (accounts : Accounts) :
    (∃ t, Resolved config payer accounts t) ∨ ∃ e, Refused config payer accounts e := by
  cases htoken : config.splToken with
  | none =>
    cases haccount : config.splTokenAccount with
    | none => exact .inl ⟨_, .native htoken haccount⟩
    | some account => exact .inr ⟨_, .missingToken htoken (haccount ▸ rfl)⟩
  | some token =>
    cases hsol : config.solTreasuryAccount with
    | some sol => exact .inr ⟨_, .conflict (htoken ▸ rfl) (hsol ▸ rfl)⟩
    | none =>
      obtain ⟨mint, hmint⟩ | ⟨e, hmint⟩ :=
        (Mint.accountCheck token).found_or_refused (accounts token)
      · obtain ⟨account, haccount⟩ | ⟨e, haccount⟩ :=
          (TokenAccount.accountCheck (holder config payer token)).found_or_refused
            (accounts (holder config payer token))
        · by_cases hsame : account.mint = token
          · exact .inl ⟨_, .token htoken hsol hmint haccount hsame⟩
          · exact .inr ⟨_, .mismatch htoken hsol hmint haccount hsame⟩
        · exact .inr ⟨e, .account htoken hsol hmint haccount⟩
      · exact .inr ⟨e, .mint htoken hsol hmint⟩

/-! ## The run -/

theorem resolve_of_token {token : Address} (htoken : config.splToken = some token)
    (hsol : config.solTreasuryAccount = none) :
    resolve config payer = Mint.check token >>= fun mint =>
      TokenAccount.check (holder config payer token) >>= fun account =>
      if account.mint = token then
        .done ⟨holder config payer token, some token, mint.decimals⟩
      else .fail (.account (.treasuryMismatch (holder config payer token) token)) := by
  rw [resolve, htoken, hsol]
  rfl

theorem resolve_of_native (htoken : config.splToken = none)
    (haccount : config.splTokenAccount = none) :
    resolve config payer = .done ⟨config.solTreasuryAccount.getD payer, none, 9⟩ := by
  rw [resolve, htoken, haccount]
  rfl

theorem resolve_of_missing (htoken : config.splToken = none)
    (haccount : config.splTokenAccount.isSome) :
    resolve config payer = .fail (.config .missingToken) := by
  obtain ⟨account, haccount⟩ := Option.isSome_iff_exists.1 haccount
  rw [resolve, htoken, haccount]

theorem resolve_of_conflict (htoken : config.splToken.isSome)
    (hsol : config.solTreasuryAccount.isSome) :
    resolve config payer = .fail (.config .treasuryConflict) := by
  obtain ⟨token, htoken⟩ := Option.isSome_iff_exists.1 htoken
  rw [resolve, htoken]
  exact if_pos hsol

theorem Resolved.runs (h : Resolved config payer accounts t) :
    ∃ reads : List Address, (resolve config payer).Runs (reads.map accounts.read) (.ok t) := by
  cases h with
  | native htoken haccount =>
    rw [resolve_of_native htoken haccount]
    exact ⟨[], .done _⟩
  | @token token _ _ htoken hsol hmint haccount hsame =>
    rw [resolve_of_token htoken hsol]
    refine ⟨[token, holder config payer token], ?_⟩
    refine ((Mint.accountCheck token).runs_of_found hmint).bind ?_
    refine ((TokenAccount.accountCheck _).runs_of_found haccount).bind ?_
    rw [if_pos hsame]
    exact .done _

theorem Refused.runs (h : Refused config payer accounts e) :
    ∃ reads : List Address, (resolve config payer).Runs (reads.map accounts.read) (.error e) := by
  cases h with
  | missingToken htoken haccount =>
    rw [resolve_of_missing htoken haccount]
    exact ⟨[], .fail _⟩
  | conflict htoken hsol =>
    rw [resolve_of_conflict htoken hsol]
    exact ⟨[], .fail _⟩
  | @mint token _ htoken hsol hmint =>
    rw [resolve_of_token htoken hsol]
    have hrun := (Mint.accountCheck token).runs_of_refused hmint
    exact ⟨[token], runs_bind_iff.2 (.inl ⟨e, rfl, hrun⟩)⟩
  | @account token _ _ htoken hsol hmint haccount =>
    rw [resolve_of_token htoken hsol]
    refine ⟨[token, holder config payer token], ?_⟩
    refine ((Mint.accountCheck token).runs_of_found hmint).bind ?_
    have hrun := (TokenAccount.accountCheck _).runs_of_refused haccount
    exact runs_bind_iff.2 (.inl ⟨e, rfl, hrun⟩)
  | @mismatch token _ _ htoken hsol hmint haccount hdiffers =>
    rw [resolve_of_token htoken hsol]
    refine ⟨[token, holder config payer token], ?_⟩
    refine ((Mint.accountCheck token).runs_of_found hmint).bind ?_
    refine ((TokenAccount.accountCheck _).runs_of_found haccount).bind ?_
    rw [if_neg hdiffers]
    exact .fail _

/-! ## What is asked for -/

/-- The treasury is decided by the configuration, or a token is read. -/
theorem resolve_cases (config : Config) (payer : Address) :
    (∃ t, resolve config payer = .done t) ∨ (∃ e, resolve config payer = .fail e) ∨
      ∃ token, config.splToken = some token ∧ config.solTreasuryAccount = none := by
  cases htoken : config.splToken with
  | none =>
    cases haccount : config.splTokenAccount with
    | none => exact .inl ⟨_, resolve_of_native htoken haccount⟩
    | some account => exact .inr (.inl ⟨_, resolve_of_missing htoken (haccount ▸ rfl)⟩)
  | some token =>
    cases hsol : config.solTreasuryAccount with
    | none => exact .inr (.inr ⟨token, rfl, rfl⟩)
    | some sol => exact .inr (.inl ⟨_, resolve_of_conflict (htoken ▸ rfl) (hsol ▸ rfl)⟩)

/-- Once an account is read, the treasury is refused for what the accounts are. -/
theorem only_resolve_of_token {token : Address} (htoken : config.splToken = some token)
    (hsol : config.solTreasuryAccount = none) :
    (resolve config payer).Only Request.IsAccount Failure.IsOfTreasury := by
  rw [resolve_of_token htoken hsol]
  refine (Mint.only_check token).bind fun mint => (TokenAccount.only_check _).bind fun account => ?_
  split
  · exact only_done _
  · exact only_fail_iff.2 trivial

theorem only_resolve (config : Config) (payer : Address) :
    (resolve config payer).Only Request.IsAccount fun _ => True := by
  rcases resolve_cases config payer with ⟨t, h⟩ | ⟨e, h⟩ | ⟨token, htoken, hsol⟩
  · rw [h]
    exact only_done t
  · rw [h]
    exact only_fail_iff.2 trivial
  · exact (only_resolve_of_token htoken hsol).mono (fun _ => id) fun _ _ => trivial

/-- The token is read and then the account that holds it. -/
theorem length_le_two (h : (resolve config payer).Runs es o) : es.length ≤ 2 := by
  rcases resolve_cases config payer with ⟨t, ht⟩ | ⟨e, he⟩ | ⟨token, htoken, hsol⟩
  · rw [ht] at h
    cases h
    exact Nat.zero_le 2
  · rw [he] at h
    cases h
    exact Nat.zero_le 2
  · rw [resolve_of_token htoken hsol] at h
    obtain ⟨_, -, h₁⟩ | ⟨mint, es₁, es₂, rfl, h₁, hrest⟩ := runs_bind_iff.1 h
    · obtain ⟨_, rfl, -⟩ := runs_checked_iff.1 h₁
      exact Nat.le_succ 1
    obtain ⟨_, rfl, -⟩ := runs_checked_iff.1 h₁
    obtain ⟨_, -, h₂⟩ | ⟨account, es₃, es₄, rfl, h₂, hend⟩ := runs_bind_iff.1 hrest
    · obtain ⟨_, rfl, -⟩ := runs_checked_iff.1 h₂
      exact Nat.le_refl 2
    obtain ⟨_, rfl, -⟩ := runs_checked_iff.1 h₂
    have hnil : es₄ = [] := by
      split at hend
      · exact (runs_done_iff.1 hend).1
      · exact (runs_fail_iff.1 hend).1
    rw [hnil]
    exact Nat.le_refl 2

/-- Only what the configuration says by itself can be at fault if nothing is read. -/
theorem isOfTreasury_of_reads (h : (resolve config payer).Runs es (.error e)) (hes : es ≠ []) :
    e.IsOfTreasury := by
  rcases resolve_cases config payer with ⟨t, ht⟩ | ⟨e', he⟩ | ⟨token, htoken, hsol⟩
  · rw [ht] at h
    cases h
  · rw [he] at h
    cases h
    exact absurd rfl hes
  · exact h.of_error (only_resolve_of_token htoken hsol)

/-! ## The outcome -/

/-- **The treasury is resolved** if and only if payments can go there. -/
theorem resolve_ok_iff (h : (resolve config payer).Runs es o) (hes : ∀ e ∈ es, accounts.Shows e) :
    o = .ok t ↔ Resolved config payer accounts t := by
  obtain ⟨reads, rfl⟩ := h.exists_reads (only_resolve config payer) hes
  constructor
  · rintro rfl
    obtain ⟨t', ht'⟩ | ⟨e, he⟩ := resolved_or_refused config payer accounts
    · obtain ⟨_, h'⟩ := ht'.runs
      cases (h.eq_of_reads h').2
      exact ht'
    · obtain ⟨_, h'⟩ := he.runs
      cases (h.eq_of_reads h').2
  · intro ht
    obtain ⟨_, h'⟩ := ht.runs
    exact (h.eq_of_reads h').2

/-- **The treasury is refused** for the first reason, if there is one. -/
theorem resolve_error_iff (h : (resolve config payer).Runs es o)
    (hes : ∀ e ∈ es, accounts.Shows e) : o = .error e ↔ Refused config payer accounts e := by
  obtain ⟨reads, rfl⟩ := h.exists_reads (only_resolve config payer) hes
  constructor
  · rintro rfl
    obtain ⟨t, ht⟩ | ⟨e', he⟩ := resolved_or_refused config payer accounts
    · obtain ⟨_, h'⟩ := ht.runs
      cases (h.eq_of_reads h').2
    · obtain ⟨_, h'⟩ := he.runs
      cases (h.eq_of_reads h').2
      exact he
  · intro he
    obtain ⟨_, h'⟩ := he.runs
    exact (h.eq_of_reads h').2

end Treasury

end CandyDrop
