import CandyDrop.Proofs.Checks.Precedence
import CandyDrop.Proofs.Deploy.Create
import CandyDrop.Proofs.Deploy.Treasury

/-!
# Settling the settings

What a configuration says by itself is converted before an account is read. The faults that this can
find are stated one by one (`Config.localFaults`); the first one in their order is the outcome, and
then nothing is read. What is left for later, the price and the discount in the decimals of a mint,
cannot fail any more whatever the decimals are. So once an account is read, only the treasury can be
at fault (`Settings.resolve_faults`), and without local faults there are settings if and only if
there is a treasury (`Settings.resolve_treasury`).
-/

namespace CandyDrop

open Script

/-! ## What a configuration says by itself -/

namespace Config

namespace EndSettings

/-- A value that is no date, or one before the epoch. As a number it is seconds in 64 bits with
sign. -/
def dateFault? (now : Int) : Json → Option Failure
  | .text s =>
    match Calendar.timestamp? now s with
    | none => some (.config (.invalidDate (Text.trim s)))
    | some seconds => faultIf (seconds < 0) (.config (.invalidDate (Text.ofInt seconds)))
  | .number (.integer i) =>
    faultIf (¬(0 ≤ i ∧ i < 0x8000000000000000)) (.config (.invalidDate (Text.ofInt i)))
  | value => some (.config (.invalidDate value.render))

/-- Whether a value is an amount in 64 bits, as a number or as a text. -/
def isAmount : Json → Bool
  | .number (.integer i) => decide (0 ≤ i ∧ i < 0x10000000000000000)
  | .text s => (Text.uint64? (Text.trim s)).isSome
  | _ => false

theorem faultOf_date (now : Int) (value : Json) :
    faultOf .config (seconds now value >>= fun seconds =>
      if 0 ≤ seconds then .ok (Machine.EndSettings.date (UInt64.ofNat seconds.toNat))
      else .error (.invalidDate (Text.ofInt seconds))) = dateFault? now value := by
  cases value with
  | text s =>
    rw [seconds, parseDate, dateFault?]
    cases Calendar.timestamp? now s with
    | none => rfl
    | some n => exact faultOf_unless Int.not_le
  | number n =>
    cases n with
    | integer i =>
      rw [seconds, dateFault?]
      by_cases hhigh : i < 0x8000000000000000
      · have hrange : ¬0 ≤ i ↔ ¬(0 ≤ i ∧ i < 0x8000000000000000) := not_congr (and_iff_left hhigh).symm
        rw [if_pos hhigh]
        exact faultOf_unless hrange
      · have hrange : ¬(0 ≤ i ∧ i < 0x8000000000000000) := fun h => hhigh h.2
        have htext : (Json.number (.integer i)).render = Text.ofInt i := by
          rw [Json.render, Json.chars, Json.Number.chars, String.ofList_toList]
        rw [if_neg hhigh, faultIf, if_pos hrange, htext]
        rfl
    | real x => rfl
  | _ => rfl

theorem isAmount_eq (value : Json) : isAmount value = (amount? value).isSome := by
  cases value with
  | number n =>
    cases n with
    | integer i =>
      rw [isAmount, amount?]
      split
      · next h => exact decide_eq_true h
      · next h => exact decide_eq_false h
    | real x => rfl
  | _ => rfl

theorem faultOf_toMachine (now : Int) (e : EndSettings) :
    faultOf .config (e.toMachine now) =
      if e.kind.date = true then dateFault? now e.value
      else if e.kind.amount = true then
        faultIf (¬isAmount e.value = true) (.config (.invalidAmount e.value))
      else some (.config .noEndKind) := by
  unfold toMachine
  split
  · exact faultOf_date now e.value
  · split
    · rw [isAmount_eq]
      cases amount? e.value <;> simp [faultOf, faultIf]
    · rfl

end EndSettings

variable (now : Int) (config : Config)

/-- The date on which sales start is no date. -/
def goLiveFault? : Option Failure :=
  config.goLiveDate.bind fun text =>
    if (Calendar.timestamp? now text).isNone then some (.config (.invalidDate (Text.trim text)))
    else none

/-- The end of sales is of no kind; it is a date that cannot be read or is before the epoch; or it is
an amount that cannot be read. If both kinds are chosen, it is a date. -/
def endFault? : Option Failure :=
  config.endSettings.bind fun e =>
    if e.kind.date = true then EndSettings.dateFault? now e.value
    else if e.kind.amount = true then
      faultIf (¬EndSettings.isAmount e.value = true) (.config (.invalidAmount e.value))
    else some (.config .noEndKind)

/-- The hash of hidden settings has not 32 bytes. -/
def hiddenFault? : Option Failure :=
  config.hiddenSettings.bind fun h =>
    if (Bytes.ofText h.hash).length = 32 then none
    else some (.config (.hashLength (Bytes.ofText h.hash).length))

/-- A price is negative or not finite. -/
def priceFault? (price : Binary64) : Option Failure :=
  if price.isFinite = true ∧ price.isNonnegative = true then none
  else some (.config (.invalidPrice price))

/-- Not exactly one mode of a whitelist is chosen. -/
def modeFault? : Option Failure :=
  config.whitelist.bind fun w =>
    if w.mode.burnEveryTime = w.mode.neverBurn then some (.config .whitelistMode) else none

/-- The discount of a whitelist is no price. -/
def discountFault? : Option Failure :=
  config.whitelist.bind fun w => w.discountPrice.bind priceFault?

/-- The faults of a configuration that no account is needed for, in the order of their checks. -/
def localFaults : List (Option Failure) :=
  [config.goLiveFault? now, config.endFault? now, config.hiddenFault?, priceFault? config.price,
    config.modeFault?, config.discountFault?]

theorem faultOf_goLiveSeconds :
    faultOf .config (goLiveSeconds now config.goLiveDate) = config.goLiveFault? now := by
  unfold goLiveSeconds goLiveFault?
  cases config.goLiveDate with
  | none => rfl
  | some text =>
    refine (faultOf_map _).trans ?_
    rw [Option.bind_some, parseDate]
    cases Calendar.timestamp? now text <;> rfl

theorem faultOf_convert {α β : Type} (f : α → Except ConfigFault β) (x : Option α) :
    faultOf .config (convert f x) = x.bind fun a => faultOf .config (f a) := by
  cases x with
  | none => rfl
  | some a => exact faultOf_map _

theorem faultOf_checkPrice (price : Binary64) :
    faultOf .config (checkPrice price) = priceFault? price := by
  rw [checkPrice, priceFault?]
  cases price.isFinite <;> cases price.isNonnegative <;> rfl

theorem faultOf_hidden (h : HiddenSettings) :
    faultOf .config h.toMachine =
      if (Bytes.ofText h.hash).length = 32 then none
      else some (.config (.hashLength (Bytes.ofText h.hash).length)) := by
  unfold HiddenSettings.toMachine
  dsimp only
  split <;> rfl

theorem faultOf_mode (k : WhitelistKind) :
    faultOf .config k.toMachine =
      if k.burnEveryTime = k.neverBurn then some (.config .whitelistMode) else none := by
  unfold WhitelistKind.toMachine
  cases k.burnEveryTime <;> cases k.neverBurn <;> rfl

theorem faultOf_checkWhitelist :
    faultOf .config (LocalSettings.checkWhitelist config.whitelist) =
      config.modeFault?.or config.discountFault? := by
  unfold modeFault? discountFault?
  cases config.whitelist with
  | none => rfl
  | some w =>
    rw [Option.bind_some, Option.bind_some, ← faultOf_mode]
    refine faultOf_bind fun _ _ => ?_
    cases w.discountPrice with
    | none => rfl
    | some price => exact faultOf_checkPrice price

/-- The first local fault is what the conversion ends with. -/
theorem faultOf_ofConfig :
    faultOf .config (LocalSettings.ofConfig now config) = firstFault? (config.localFaults now) := by
  have hend : faultOf .config (convert (EndSettings.toMachine now) config.endSettings) =
      config.endFault? now := by
    rw [faultOf_convert, endFault?]
    exact congrArg _ (funext (EndSettings.faultOf_toMachine now))
  have hhidden : faultOf .config (convert HiddenSettings.toMachine config.hiddenSettings) =
      config.hiddenFault? := by
    rw [faultOf_convert, hiddenFault?]
    exact congrArg _ (funext faultOf_hidden)
  simp only [localFaults, firstFault?_cons, firstFault?_nil, Option.or_none,
    ← faultOf_goLiveSeconds, ← hend, ← hhidden, ← faultOf_checkPrice, ← faultOf_checkWhitelist]
  refine faultOf_bind fun _ _ => faultOf_bind fun _ _ => faultOf_bind fun _ _ =>
    faultOf_bind fun _ _ => ?_
  exact faultOf_map _

end Config

/-! ## The order of things -/

namespace Settings

variable {config : Config} {payer : Address} {now : Int} {es : List Event}
  {o : Except Failure Settings}

theorem only_resolve (config : Config) (payer : Address) (now : Int) :
    (resolve config payer now).Only Request.IsAccount fun _ => True :=
  (only_ofExcept fun _ _ => trivial).bind fun _ =>
    (Treasury.only_resolve config payer).bind fun _ => only_ofExcept fun _ _ => trivial

/-- A run fails for a local fault, or it goes through the treasury and only puts together. -/
theorem resolve_runs (h : (resolve config payer now).Runs es o) :
    (∃ f, firstFault? (config.localFaults now) = some f ∧ es = [] ∧ o = .error f) ∨
      ∃ parts, LocalSettings.ofConfig now config = .ok parts ∧
        firstFault? (config.localFaults now) = none ∧
        ∃ o', (Treasury.resolve config payer).Runs es o' ∧
          ((∃ e, o' = .error e ∧ o = .error e) ∨
            ∃ t s, o' = .ok t ∧ assemble config parts t = .ok s ∧ o = .ok s) := by
  rw [← Config.faultOf_ofConfig]
  obtain ⟨e, rfl, hparts⟩ | ⟨parts, es₁, es₂, rfl, hparts, hrest⟩ := runs_bind_iff.1 h
  · obtain ⟨rfl, ho⟩ := runs_ofExcept_iff.1 hparts
    obtain ⟨fault, hfault, rfl⟩ := mapError_eq_error_iff.1 ho.symm
    refine .inl ⟨_, ?_, rfl, rfl⟩
    rw [hfault, faultOf]
  · obtain ⟨rfl, ho⟩ := runs_ofExcept_iff.1 hparts
    have hlocal := mapError_eq_ok_iff.1 ho.symm
    refine .inr ⟨parts, hlocal, ?_, ?_⟩
    · rw [hlocal, faultOf]
    obtain ⟨e, rfl, ht⟩ | ⟨t, es₃, es₄, rfl, ht, hs⟩ := runs_bind_iff.1 hrest
    · exact ⟨_, ht, .inl ⟨e, rfl, rfl⟩⟩
    · obtain ⟨rfl, rfl⟩ := runs_ofExcept_iff.1 hs
      obtain ⟨s, hs⟩ := exists_assemble hlocal t
      rw [List.nil_append, List.append_nil]
      exact ⟨_, ht, .inr ⟨t, s, rfl, hs, mapError_eq_ok_iff.2 hs⟩⟩

/-- **Local faults come first.** If a configuration has a local fault, the first one in the order of
their checks is the outcome, and nothing is asked. If it has none, the price and the whitelist can be
converted with any decimals. If anything is asked, it is for accounts, two at the most, and a failure
then comes from the treasury and never from a conversion. -/
theorem resolve_faults (hrun : (resolve config payer now).Runs es o) :
    (∀ f, firstFault? (config.localFaults now) = some f → o = .error f ∧ es = []) ∧
      (firstFault? (config.localFaults now) = none → ∀ decimals,
        (∃ units, Config.baseUnits config.price decimals = .ok units) ∧
          ∃ whitelist, Config.convert (Config.Whitelist.toMachine decimals) config.whitelist =
            .ok whitelist) ∧
      (es ≠ [] → ∀ e, o = .error e → e.IsOfTreasury) ∧
      (∀ e ∈ es, ∃ a, e.request = .account a) ∧ es.length ≤ 2 := by
  rcases resolve_runs hrun with ⟨f, hf, rfl, rfl⟩ | ⟨parts, hparts, hnone, o', ht, ho⟩
  · refine ⟨fun f' hf' => ?_, fun hnone => ?_, fun h => absurd rfl h, by simp, Nat.zero_le 2⟩
    · rw [hf] at hf'
      cases hf'
      exact ⟨rfl, rfl⟩
    · rw [hf] at hnone
      cases hnone
  · refine ⟨fun f hf => ?_, fun _ => exists_conversions hparts, fun hne e he => ?_, fun e he => ?_,
      Treasury.length_le_two ht⟩
    · rw [hnone] at hf
      cases hf
    · subst he
      rcases ho with ⟨_, rfl, hsame⟩ | ⟨t, s, -, -, hs⟩
      · cases hsame
        exact Treasury.isOfTreasury_of_reads ht hne
      · cases hs
    · exact (ht.forall_request (Treasury.only_resolve config payer) e he).exists_eq

end Settings

/-- A configuration with a hash that is too short and with a negative price. -/
def Sample.faultyConfig : Config :=
  { config with
    price := Binary64.ofInt (-1)
    hiddenSettings := some ⟨"A", "https://x", "short"⟩ }

/-- A token that payments can be made in. -/
def Sample.token : Address := Ledger.newKey 10

/-- A configuration with prices in this token and no account for it. -/
def Sample.tokenConfig : Config :=
  { config with
    price := Binary64.ofNat 2
    splToken := some token
    whitelist := some ⟨⟨true, false⟩, Ledger.newKey 6, false, some (Binary64.ofNat 1)⟩ }

/-- Of two faults the first one counts, and a token that is missing is a fault of the treasury. -/
theorem Settings.resolve_faults_twice :
    Config.priceFault? Sample.faultyConfig.price ≠ none ∧
      (∃ es, (Settings.resolve Sample.faultyConfig Sample.payer 0).Runs es
        (.error (.config (.hashLength 5))) ∧ es = []) ∧
      ∃ es e, (Settings.resolve Sample.tokenConfig Sample.payer 0).Runs es (.error e) ∧
        es.length = 1 ∧ e.IsOfTreasury := by
  have hprice : (Config.priceFault? Sample.faultyConfig.price).isSome = true := by decide +kernel
  have hfirst : firstFault? (Sample.faultyConfig.localFaults 0) =
      some (.config (.hashLength 5)) := by
    have hhidden : Sample.faultyConfig.hiddenFault? = some (.config (.hashLength 5)) := rfl
    rw [Config.localFaults, firstFault?_cons, firstFault?_cons, firstFault?_cons, hhidden]
    rfl
  have hrun := Ledger.runs_transcript
    (Settings.resolve Sample.faultyConfig Sample.payer 0) Ledger.blank
  have hread := Ledger.runs_transcript
    (Settings.resolve Sample.tokenConfig Sample.payer 0) Ledger.blank
  have hends : (Ledger.transcript (Settings.resolve Sample.tokenConfig Sample.payer 0)
        Ledger.blank).1.length = 1 ∧
      (Ledger.blank.run (Settings.resolve Sample.tokenConfig Sample.payer 0)).1.isOk = false := by
    decide +kernel
  obtain ⟨e, he⟩ := exists_eq_error_of_isOk hends.2
  obtain ⟨ho, hes⟩ := (Settings.resolve_faults hrun).1 _ hfirst
  rw [ho] at hrun
  have htreasury := (Settings.resolve_faults hread).2.2.1
    (List.ne_nil_of_length_eq_add_one hends.1) e he
  rw [he] at hread
  refine ⟨fun hnone => ?_, ⟨_, hrun, hes⟩, _, e, hread, hends.1, htreasury⟩
  rw [hnone] at hprice
  cases hprice

/-! ## Settings and treasury -/

namespace Settings

variable {config : Config} {payer : Address} {now : Int} {accounts : Accounts} {es : List Event}
  {o : Except Failure Settings} {parts : LocalSettings}

/-- Payments in the settings go where the treasury says, and all prices are in its decimals. -/
structure PaysTo (config : Config) (t : Treasury) (s : Settings) : Prop where
  wallet : s.wallet = t.wallet
  tokenMint : s.tokenMint = t.token
  price : Config.baseUnits config.price t.decimals = .ok s.price
  discount : Option.Rel (fun (w : Config.Whitelist) (w' : Machine.Whitelist) =>
    Config.convert (Config.baseUnits · t.decimals) w.discountPrice = .ok w'.discountPrice)
    config.whitelist s.whitelist

theorem paysTo_of_assemble {t : Treasury} {s : Settings} (h : assemble config parts t = .ok s) :
    PaysTo config t s := by
  simp only [assemble, except_bind_eq_ok_iff] at h
  obtain ⟨whitelist, hwhitelist, price, hprice, h⟩ := h
  cases h
  refine ⟨rfl, rfl, hprice, ?_⟩
  cases hw : config.whitelist with
  | none =>
    rw [hw] at hwhitelist
    cases hwhitelist
    exact .none
  | some w =>
    rw [hw] at hwhitelist
    obtain ⟨w', hw', hsome⟩ := except_bind_eq_ok_iff.1 hwhitelist
    cases hsome
    obtain ⟨mode, -, hw'⟩ := except_bind_eq_ok_iff.1 hw'
    obtain ⟨discount, hdiscount, hw'⟩ := except_bind_eq_ok_iff.1 hw'
    cases hw'
    exact .some hdiscount

theorem exists_treasury {s : Settings} (h : (resolve config payer now).Runs es (.ok s)) :
    ∃ t, (Treasury.resolve config payer).Runs es (.ok t) ∧ PaysTo config t s := by
  rcases resolve_runs h with ⟨_, -, -, herror⟩ | ⟨parts, -, -, o', ht, ho⟩
  · cases herror
  rcases ho with ⟨_, -, herror⟩ | ⟨t, _, rfl, hs, hok⟩
  · cases herror
  · cases hok
    exact ⟨t, ht, paysTo_of_assemble hs⟩

/-- **Settings go with the treasury.** Let the local conversions of a configuration succeed. Then
there are settings if and only if there is a treasury: in the native token, if no token and no token
account are given, or in a token whose mint and whose holder are in order and belong together, if no
other treasury is given. The settings pay to this treasury, and the price and the discount are in its
decimals. Otherwise the failure is the first reason why there is no treasury. -/
theorem resolve_treasury (hlocal : LocalSettings.ofConfig now config = .ok parts)
    (hrun : (resolve config payer now).Runs es o) (hes : ∀ e ∈ es, accounts.Shows e) :
    ((∃ s, o = .ok s) ↔ ∃ t, Treasury.Resolved config payer accounts t) ∧
      (∀ t, Treasury.Resolved config payer accounts t → ∃ s, o = .ok s ∧ PaysTo config t s) ∧
      ∀ e, o = .error e ↔ Treasury.Refused config payer accounts e := by
  rcases resolve_runs hrun with ⟨f, hf, -, -⟩ | ⟨parts', hparts, -, o', ht, ho⟩
  · rw [← Config.faultOf_ofConfig, hlocal] at hf
    cases hf
  have hok (t) := Treasury.resolve_ok_iff (t := t) ht hes
  have herror (e) := Treasury.resolve_error_iff (e := e) ht hes
  rcases ho with ⟨e, rfl, rfl⟩ | ⟨t, s, rfl, hs, rfl⟩
  · have hnone : ∀ t, ¬Treasury.Resolved config payer accounts t := by
      intro t ht
      cases (hok t).2 ht
    refine ⟨⟨fun ⟨s, hs⟩ => ?_, fun ⟨t, ht⟩ => absurd ht (hnone t)⟩,
      fun t ht => absurd ht (hnone t), fun e' => ?_⟩
    · cases hs
    · rw [← herror e', Except.error.injEq, Except.error.injEq]
  · have ht := (hok t).1 rfl
    refine ⟨iff_of_true ⟨s, rfl⟩ ⟨t, ht⟩, fun t' ht' => ?_, fun e => ?_⟩
    · cases (hok t').2 ht'
      exact ⟨s, rfl, paysTo_of_assemble hs⟩
    · rw [← herror e]
      exact iff_of_false (fun h => by cases h) fun h => by cases h

end Settings

namespace Sample

def mint : Mint := ⟨none, 1000, 6, true, none⟩

def mintBytes : Bytes :=
  Borsh.u32 0 ++ List.replicate 32 0 ++ Borsh.u64 1000 ++ Borsh.u8 6 ++ Borsh.bool true
    ++ (Borsh.u32 0 ++ List.replicate 32 0)

def tokenAccount : TokenAccount := ⟨token, payer, 0, .initialized⟩

def tokenAccountBytes : Bytes :=
  Borsh.address token ++ Borsh.address payer ++ Borsh.u64 0 ++ (Borsh.u32 0 ++ List.replicate 32 0)
    ++ [1] ++ (Borsh.u32 0 ++ List.replicate 8 0) ++ Borsh.u64 0
    ++ (Borsh.u32 0 ++ List.replicate 32 0)

/-- The mint of the token, and nothing but accounts for it. -/
def tokenAccounts : Accounts := fun a =>
  if a = token then .ok (some mintBytes) else .ok (some tokenAccountBytes)

theorem usable_mintBytes : mint.Usable mintBytes :=
  ⟨rfl, ⟨_, _, ⟨_, List.length_replicate .., rfl⟩, ⟨_, List.length_replicate .., rfl⟩, rfl⟩, rfl⟩

theorem found_mint : mint.Found (tokenAccounts token) := ⟨mintBytes, if_pos rfl, usable_mintBytes⟩

theorem found_tokenAccount {a : Address} (ha : a ≠ token) : tokenAccount.Found (tokenAccounts a) :=
  ⟨tokenAccountBytes, if_neg ha,
    ⟨none, none, 0, none, _, _, _, ⟨_, List.length_replicate .., rfl⟩,
      ⟨_, List.length_replicate .., rfl⟩, ⟨_, List.length_replicate .., rfl⟩, rfl⟩, nofun⟩

end Sample

/-- Payments in a token go to the account in which the payer holds it by default. -/
theorem Settings.resolve_treasury_token :
    ∃ es s, (Settings.resolve Sample.tokenConfig Sample.payer 0).Runs es (.ok s) ∧
      (∀ e ∈ es, Sample.tokenAccounts.Shows e) ∧
      s.wallet = Address.associatedToken Sample.payer Sample.token ∧
      s.tokenMint = some Sample.token ∧ s.price = 2000000 := by
  have hlocal : (LocalSettings.ofConfig 0 Sample.tokenConfig).isOk = true := by decide +kernel
  have hdiffer : Address.associatedToken Sample.payer Sample.token ≠ Sample.token := by
    decide +kernel
  have hunits : (Config.baseUnits Sample.tokenConfig.price 6).toOption = some 2000000 := by
    decide +kernel
  have htreasury : Treasury.Resolved Sample.tokenConfig Sample.payer Sample.tokenAccounts
      ⟨Address.associatedToken Sample.payer Sample.token, some Sample.token, 6⟩ :=
    .token rfl rfl Sample.found_mint (Sample.found_tokenAccount hdiffer) rfl
  obtain ⟨parts, hparts⟩ := exists_eq_ok_of_isOk hlocal
  obtain ⟨reads, o, hrun⟩ :=
    (Settings.only_resolve Sample.tokenConfig Sample.payer 0).exists_reads Sample.tokenAccounts
  have hes := shows_reads Sample.tokenAccounts reads
  obtain ⟨s, rfl, hpays⟩ := (Settings.resolve_treasury hparts hrun hes).2.1 _ htreasury
  obtain ⟨hwallet, htoken, hprice, -⟩ := hpays
  dsimp only at hwallet htoken hprice
  rw [hprice] at hunits
  exact ⟨_, s, hrun, hes, hwallet, htoken, Option.some.inj hunits⟩

end CandyDrop
