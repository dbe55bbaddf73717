import CandyDrop.Proofs.Address.RoundTrip
import CandyDrop.Proofs.Checks.Details
import CandyDrop.Proofs.Deploy.Create
import CandyDrop.Proofs.Machine.Layout
import CandyDrop.Proofs.Machine.Space
import CandyDrop.Proofs.Rehearsal.Transcript

/-!
# The size of a candy machine account

An account is made with room for every part of a machine at its largest (`MachineData.fixedSize`).
The parts that a collection and the settings of a configuration bound fit into it, and what they
leave of it is `Machine.spare`. The texts of hidden settings are not bounded by anything, so that a
machine with hidden settings fits if and only if these texts fit into their room and the spare room
together (`Machine.initial_fits_iff`).
-/

namespace CandyDrop

namespace Machine

/-! ## The room that is left -/

/-- The room of a whitelist that is not used. -/
def Whitelist.spare (w : Whitelist) : Nat := w.discountPrice.elim 8 fun _ => 0

/-- The room that an account has and a machine does not use, with that for the number of config
lines. The texts of hidden settings are left out of account. -/
def spare (m : Machine) : Nat :=
  m.tokenMint.elim 32 (fun _ => 0)
    + m.data.goLiveDate.elim 8 (fun _ => 0)
    + m.data.endSettings.elim 9 (fun _ => 0)
    + (10 - Bytes.sizeOfText m.data.symbol)
    + (5 - m.data.creators.length) * 34
    + 4
    + m.data.whitelist.elim 43 Whitelist.spare
    + m.data.gatekeeper.elim 33 (fun _ => 0)

/-- The machine is within the limits of a collection. -/
structure IsBounded (m : Machine) : Prop where
  shortName : Bytes.sizeOfText m.data.shortName = 6
  symbol : Bytes.sizeOfText m.data.symbol ≤ 10
  creators : m.data.creators.length ≤ 4

/-- An optional part of one length is there or leaves its room. -/
theorem elim_add_elim {α : Type} (x : Option α) (n : Nat) :
    (x.elim 0 fun _ => n) + (x.elim n fun _ => 0) = n := by
  cases x <;> simp

theorem elim_add_elim_whitelist (w : Option Whitelist) :
    (w.elim 0 fun w => 35 + w.discountPrice.elim 0 fun _ => 8) + w.elim 43 Whitelist.spare = 43 := by
  cases w with
  | none => rfl
  | some w => cases h : w.discountPrice <;> simp [Whitelist.spare, h]

/-- **The length of an account** and the room that is left are the room that it is made with; of the
room for hidden settings as much is used as they need. -/
theorem length_toAccount_add_spare {m : Machine} (h : m.IsBounded) :
    m.toAccount.length + m.spare + 272 = MachineData.fixedSize.toNat +
      m.data.hiddenSettings.elim 0 fun hidden =>
        40 + Bytes.sizeOfText hidden.name + Bytes.sizeOfText hidden.uri := by
  have hfixed : MachineData.fixedSize.toNat = 713 := rfl
  have hshort := h.shortName
  have hsymbol := h.symbol
  have hcreators := h.creators
  simp only [toAccount, encode, MachineData.encode, spare, List.length_append, length_discriminator,
    Borsh.length_address, Borsh.length_option, Borsh.length_u64, Borsh.length_text,
    Borsh.length_u16, Borsh.length_bool, Borsh.length_i64, EndSettings.length_encode,
    Borsh.length_list Creator.length_encode, HiddenSettings.length_encode,
    Whitelist.length_encode, Gatekeeper.length_encode]
  have htoken := elim_add_elim m.tokenMint 32
  have hlive := elim_add_elim m.data.goLiveDate 8
  have hend := elim_add_elim m.data.endSettings 9
  have hgatekeeper := elim_add_elim m.data.gatekeeper 33
  have hwhitelist := elim_add_elim_whitelist m.data.whitelist
  omega

theorem spare_le (m : Machine) : m.spare ≤ 309 := by
  have htoken := elim_add_elim m.tokenMint 32
  have hlive := elim_add_elim m.data.goLiveDate 8
  have hend := elim_add_elim m.data.endSettings 9
  have hgatekeeper := elim_add_elim m.data.gatekeeper 33
  have hwhitelist := elim_add_elim_whitelist m.data.whitelist
  unfold spare
  omega

end Machine

namespace MachineData

variable {space : UInt64} {d : MachineData}

theorem space?_of_hidden (h : d.hiddenSettings.isSome = true) : d.space? = some fixedSize :=
  if_pos h

/-- An account is never smaller than its fixed part. -/
theorem fixedSize_le_of_space? (h : d.space? = some space) : fixedSize.toNat ≤ space.toNat := by
  cases hd : d.hiddenSettings with
  | some hidden =>
    rw [space?_of_hidden (by rw [hd, Option.isSome_some])] at h
    exact Nat.le_of_eq (congrArg _ (Option.some.inj h))
  | none =>
    rw [(space?_eq_some_iff hd).1 h, sizeFor]
    omega

end MachineData

/-! ## What is bounded -/

/-- The details of a collection are within the room of an account. -/
theorem CollectionDetails.bounds_of_check {symbol : String} {fee : UInt16}
    {cs : List Config.Creator} {details : CollectionDetails}
    (h : CollectionDetails.check symbol fee cs = .ok details) :
    Bytes.sizeOfText details.symbol ≤ Checks.maxSymbolLength ∧
      details.creators.length ≤ Checks.maxCreators := by
  simp only [CollectionDetails.check, except_bind_eq_ok_iff] at h
  obtain ⟨_, hsymbol, _, -, creators, hcreators, h⟩ := h
  cases h
  refine ⟨?_, Checks.length_creators hcreators⟩
  unfold Checks.symbol at hsymbol
  split at hsymbol
  · assumption
  · cases hsymbol

/-- The texts of hidden settings take the room that they take in the configuration; no length is
checked. -/
theorem Settings.texts_of_resolve {config : Config} {payer : Address} {now : Int}
    {es : List Event} {settings : Settings}
    (h : (Settings.resolve config payer now).Runs es (.ok settings)) :
    (config.hiddenSettings = none ∧ settings.hiddenSettings = none) ∨
      ∃ hidden hidden', config.hiddenSettings = some hidden ∧
        settings.hiddenSettings = some hidden' ∧ hidden'.name = hidden.name ∧
        hidden'.uri = hidden.uri := by
  have hconvert := Settings.hidden_of_resolve h
  cases hc : config.hiddenSettings with
  | none =>
    rw [hc] at hconvert
    exact .inl ⟨rfl, (Except.ok.inj hconvert).symm⟩
  | some hidden =>
    rw [hc] at hconvert
    obtain ⟨hidden', hmachine, h⟩ := except_bind_eq_ok_iff.1 hconvert
    simp only [Config.HiddenSettings.toMachine] at hmachine
    split at hmachine
    · cases hmachine
      exact .inr ⟨hidden, _, rfl, (Except.ok.inj h).symm, rfl, rfl⟩
    · cases hmachine

/-! ## Whether the account is large enough -/

/-- The account of a machine that is set up for a payer. -/
def Machine.initial (payer : Address) (settings : Settings) (data : MachineData) : Machine :=
  ⟨payer, settings.wallet, settings.tokenMint, 0, data⟩

/-- **When the account of a new machine is large enough.** It always is without hidden settings, and
with hidden settings if and only if their name and link fit into the room for them together with
the room that the other parts leave. -/
theorem Machine.initial_fits_iff {config : Config} {payer : Address} {now : Int}
    {es : List Event} {settings : Settings}
    (hsettings : (Settings.resolve config payer now).Runs es (.ok settings))
    {symbol : String} {fee : UInt16} {cs : List Config.Creator} {details : CollectionDetails}
    (hdetails : CollectionDetails.check symbol fee cs = .ok details) (items : UInt64)
    (machine : Address) {space : UInt64}
    (hspace : (MachineData.ofSettings settings details items machine.shortName).space? =
      some space) :
    let m := initial payer settings
      (MachineData.ofSettings settings details items machine.shortName)
    m.toAccount.length ≤ space.toNat ↔ ∀ hidden, config.hiddenSettings = some hidden →
      Bytes.sizeOfText hidden.name + Bytes.sizeOfText hidden.uri ≤
        Checks.maxNameLength + Checks.maxUrlLength + m.spare := by
  intro m
  have hbounds := CollectionDetails.bounds_of_check hdetails
  have hlength : m.toAccount.length + m.spare + 272 = MachineData.fixedSize.toNat +
      settings.hiddenSettings.elim 0 fun hidden =>
        40 + Bytes.sizeOfText hidden.name + Bytes.sizeOfText hidden.uri :=
    length_toAccount_add_spare ⟨machine.sizeOfText_shortName, hbounds.1, hbounds.2⟩
  rcases Settings.texts_of_resolve hsettings with
    ⟨hconfig, hnone⟩ | ⟨hidden, hidden', hconfig, hsome, hname, huri⟩
  · rw [hnone, Option.elim_none] at hlength
    have hroom := MachineData.fixedSize_le_of_space? hspace
    simp only [hconfig, reduceCtorEq, false_implies, implies_true, iff_true]
    omega
  · rw [hsome, Option.elim_some, hname, huri] at hlength
    have hdata : (MachineData.ofSettings settings details items
        machine.shortName).hiddenSettings.isSome = true := by
      rw [MachineData.ofSettings, hsome]
      rfl
    rw [MachineData.space?_of_hidden hdata, Option.some.injEq] at hspace
    subst hspace
    simp only [hconfig, Option.some.injEq, forall_eq', Checks.maxNameLength, Checks.maxUrlLength]
    omega

/-- A configuration that hides the items behind a link of 600 bytes. -/
def Sample.longLink : Config :=
  { Sample.config with
    hiddenSettings := some ⟨"N", String.ofList (List.replicate 600 'x'),
      String.ofList (List.replicate 32 '0')⟩ }

/-- A link of 600 bytes is more than any account has room for, and nothing refuses it. -/
theorem Machine.initial_fits_iff_long :
    ∃ es settings details space,
      (Settings.resolve Sample.longLink Sample.payer 0).Runs es (.ok settings) ∧
      CollectionDetails.check Sample.longLink.symbol 0 Sample.longLink.creators = .ok details ∧
      (MachineData.ofSettings settings details 1 Sample.payer.shortName).space? = some space ∧
      ¬(initial Sample.payer settings
        (MachineData.ofSettings settings details 1 Sample.payer.shortName)).toAccount.length ≤
          space.toNat := by
  have hrun := Ledger.runs_transcript (Settings.resolve Sample.longLink Sample.payer 0) Ledger.blank
  have hok : (Ledger.blank.run (Settings.resolve Sample.longLink Sample.payer 0)).1.isOk = true ∧
      (CollectionDetails.check Sample.longLink.symbol 0 Sample.longLink.creators).isOk = true := by
    decide +kernel
  obtain ⟨settings, hsettings⟩ := exists_eq_ok_of_isOk hok.1
  obtain ⟨details, hdetails⟩ := exists_eq_ok_of_isOk hok.2
  rw [hsettings] at hrun
  have hhidden : settings.hiddenSettings.isSome = true := by
    rcases Settings.texts_of_resolve hrun with ⟨hnone, -⟩ | ⟨_, _, -, hsome, -⟩
    · cases hnone
    · rw [hsome]
      rfl
  have hspace : (MachineData.ofSettings settings details 1 Sample.payer.shortName).space? =
      some MachineData.fixedSize := MachineData.space?_of_hidden hhidden
  refine ⟨_, settings, details, _, hrun, hdetails, hspace, fun hfits => ?_⟩
  have htexts := (initial_fits_iff hrun hdetails 1 Sample.payer hspace).1 hfits _ rfl
  have hspare := spare_le (initial Sample.payer settings
    (MachineData.ofSettings settings details 1 Sample.payer.shortName))
  have hlink : Bytes.sizeOfText (String.ofList (List.replicate 600 'x')) = 600 := by decide +kernel
  simp only [hlink, Checks.maxNameLength, Checks.maxUrlLength] at htexts
  omega

end CandyDrop
