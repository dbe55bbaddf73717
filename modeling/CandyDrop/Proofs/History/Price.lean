import CandyDrop.Proofs.Config.Price
import CandyDrop.Proofs.History.Creation

/-!
# The price that a machine is created with

The price of a machine is that of the configuration in base units of the treasury's token. Since the
conversion keeps every amount within 64 bits instead of refusing what does not fit, a machine can be
created with the largest number of base units in place of the price that was configured
(`Maker.price_clamped`).
-/

namespace CandyDrop

open Script

/-- **A price is clamped and never refused.** A price that is finite and not below zero is converted
with any decimals, and the units are those of its exact amount, kept within 64 bits: they stand for the
price as long as the amount fits, and are the largest number from there on. When a deployment or an
upload with this price sends a transaction that sets up a machine, it has found its treasury, and the
machine has the price that is clamped in the decimals of this treasury. -/
theorem Maker.price_clamped {price : Binary64} (hfinite : price.isFinite = true)
    (hvalue : 0 ≤ price.value) (decimals : UInt8) :
    (∃ units, Config.baseUnits price decimals = .ok units ∧
        Config.Clamped decimals (Config.exactUnits price decimals) units) ∧
      ∀ (maker : Maker) payer machine now config place choice before after e t o,
        (maker.script payer now config place choice).Runs (before ++ e :: after) o →
        config.price = price → e.request.sent? = some t → machine ∈ t.createdMachines →
        ∃ treasury settings data space lamports,
          (Treasury.resolve config payer).DoneIn treasury before ∧
          t.SetsUp payer machine settings data space lamports ∧
          Config.baseUnits price treasury.decimals = .ok data.price ∧
          Config.Clamped treasury.decimals (Config.exactUnits price treasury.decimals)
            data.price := by
  constructor
  · have hunits : Config.baseUnits price decimals = .ok _ :=
      Config.baseUnits_eq_ok_iff.2 ⟨⟨hfinite, hvalue⟩, rfl⟩
    exact ⟨_, hunits, Config.clamped_of_baseUnits hunits⟩
  · rintro maker payer machine now config place choice before after e t o hrun rfl ht hcreated
    obtain ⟨plan, settings, es₁, es₂, space, lamports, rfl, hchecked, -, hsetsUp⟩ :=
      machine_sent hrun ht hcreated
    obtain ⟨gs, hgs, hresolved⟩ := hchecked.settings
    obtain ⟨treasury, htreasury, hpays⟩ := Settings.exists_treasury hresolved
    exact ⟨treasury, settings, _, space, lamports,
      htreasury.doneIn.mono (hgs.trans ⟨[], es₂, rfl⟩), hsetsUp, hpays.price,
      Config.clamped_of_baseUnits hpays.price⟩

/-- A configuration with a price of twenty billion native tokens. -/
def Sample.dear : Config := { config with price := Binary64.ofNat 20000000000 }

theorem Sample.exactUnits_dear : Config.exactUnits dear.price Config.nativeDecimals = 2 * 10 ^ 19 := by
  have hunsigned := (Binary64.roundsTo_ofNat 20000000000).isUnsigned
  have hprice : dear.price.value = 20000000000 := by
    rw [dear, Binary64.value_of_isUnsigned hunsigned, Binary64.magnitude_ofNat (by norm_num)]
    norm_num
  have hdecimals : Config.nativeDecimals.toNat = 9 := rfl
  rw [Config.exactUnits, hprice, hdecimals]
  norm_num

/-- Its amount does not fit into 64 bits. It is converted all the same, and a machine is set up that
sells for the largest number of base units. -/
theorem Maker.price_clamped_dear :
    2 ^ 64 ≤ Config.exactUnits Sample.dear.price Config.nativeDecimals ∧
      (∃ units, Config.baseUnits Sample.dear.price Config.nativeDecimals = .ok units ∧
        units.toNat = 2 ^ 64 - 1) ∧
      ∃ es o t settings data space lamports,
        (Maker.deployment.script Sample.payer 0 Sample.dear Sample.place Sample.choice).Runs es o ∧
        (∃ e ∈ es, e.request.sent? = some t) ∧
        t.SetsUp Sample.payer (Ledger.newKey 1) settings data space lamports ∧
        data.price.toNat = 2 ^ 64 - 1 := by
  have hlarge : 2 ^ 64 - 2 ^ 10 ≤ Config.exactUnits Sample.dear.price Config.nativeDecimals := by
    rw [Sample.exactUnits_dear]
    norm_num
  have hfull : ∀ {units}, Config.Clamped Config.nativeDecimals
      (Config.exactUnits Sample.dear.price Config.nativeDecimals) units →
      units.toNat = 2 ^ 64 - 1 := fun h => (h.full_iff (by decide)).2 hlarge
  have hfinite : Sample.dear.price.isFinite = true := by decide +kernel
  have hvalue := (Binary64.isNonnegative_iff hfinite).1 (by decide +kernel)
  obtain ⟨⟨units, hunits, hclamped⟩, hcreates⟩ :=
    Maker.price_clamped hfinite hvalue Config.nativeDecimals
  refine ⟨?_, ⟨units, hunits, hfull hclamped⟩, ?_⟩
  · rw [Sample.exactUnits_dear]
    norm_num
  · have hrun := Ledger.runs_transcript
      (Deploy.run Sample.payer 0 Sample.dear Sample.place Sample.choice)
      { Ledger.blank with keys := 1 }
    obtain ⟨before, e, after, t, hes, ht, hcreated⟩ : ∃ before e after t,
        (Ledger.transcript (Deploy.run Sample.payer 0 Sample.dear Sample.place Sample.choice)
          { Ledger.blank with keys := 1 }).1 = before ++ e :: after ∧
          e.request.sent? = some t ∧ Ledger.newKey 1 ∈ t.createdMachines :=
      exists_creation (by decide +kernel)
    rw [hes] at hrun
    obtain ⟨treasury, settings, data, space, lamports, ⟨gs, -, htreasury⟩, hsetsUp, -, hclamped⟩ :=
      hcreates .deployment _ _ _ _ _ _ _ _ _ _ _ hrun rfl ht hcreated
    have hnative : treasury.decimals = Config.nativeDecimals := by
      obtain ⟨-, htreasury⟩ := runs_done_iff.1 htreasury
      rw [Except.ok.inj htreasury]
    rw [hnative] at hclamped
    exact ⟨_, _, t, settings, data, space, lamports, hrun, ⟨e, by simp, ht⟩, hsetsUp, hfull hclamped⟩

end CandyDrop
