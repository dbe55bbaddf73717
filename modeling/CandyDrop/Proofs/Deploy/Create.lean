import CandyDrop.Proofs.Cache.Marks
import CandyDrop.Proofs.Script.Quiet

/-!
# Creating a machine and setting its collection

The two steps of a command that are paid for. Creating a machine sends one transaction or none, and
there is a new machine if it was accepted and only then (`Machine.create_runs`). Setting a
collection sends one transaction; the record says so if it was accepted and the file could be
written (`CollectionMint.setAndRecord_runs`).
-/

namespace CandyDrop

variable {path : String} {w w' : World} {es : List Event} {payer machine mint : Address}
  {c : Cache}

/-- The hidden settings of a machine are those of the configuration, converted. -/
theorem Settings.hidden_of_resolve {config : Config} {now : Int} {settings : Settings}
    (h : (Settings.resolve config payer now).Runs es (.ok settings)) :
    Config.convert Config.HiddenSettings.toMachine config.hiddenSettings =
      .ok settings.hiddenSettings := by
  simp only [Settings.resolve, Script.runs_bind_ok_iff, Script.runs_ofExcept_iff] at h
  obtain ⟨parts, _, _, rfl, ⟨rfl, hparts⟩, treasury, _, _, rfl, -, rfl, hsettings⟩ := h
  have hparts := mapError_eq_ok_iff.1 hparts.symm
  have hsettings := mapError_eq_ok_iff.1 hsettings.symm
  simp only [LocalSettings.ofConfig, except_bind_eq_ok_iff] at hparts
  simp only [Settings.assemble, except_bind_eq_ok_iff] at hsettings
  obtain ⟨_, -, _, -, hidden, hhidden, _, -, _, -, hparts⟩ := hparts
  obtain ⟨_, -, _, -, hsettings⟩ := hsettings
  cases hparts
  cases hsettings
  exact hhidden

namespace Settings

theorem exists_baseUnits {price : Binary64} (h : Config.checkPrice price = .ok ())
    (decimals : UInt8) : ∃ units, Config.baseUnits price decimals = .ok units := by
  rw [Config.baseUnits, h]
  exact ⟨_, rfl⟩

theorem exists_whitelist {w? : Option Config.Whitelist}
    (h : LocalSettings.checkWhitelist w? = .ok ()) (decimals : UInt8) :
    ∃ whitelist, Config.convert (Config.Whitelist.toMachine decimals) w? = .ok whitelist := by
  cases w? with
  | none => exact ⟨none, rfl⟩
  | some w =>
    obtain ⟨mode, hmode, hprice⟩ := except_bind_eq_ok_iff.1 h
    have hdiscount : ∃ discount,
        Config.convert (Config.baseUnits · decimals) w.discountPrice = .ok discount := by
      cases hd : w.discountPrice with
      | none => exact ⟨none, rfl⟩
      | some price =>
        rw [hd] at hprice
        obtain ⟨units, hunits⟩ := exists_baseUnits hprice decimals
        exact ⟨some units, except_bind_eq_ok_iff.2 ⟨units, hunits, rfl⟩⟩
    obtain ⟨discount, hdiscount⟩ := hdiscount
    have hw : w.toMachine decimals = .ok ⟨mode, w.mint, w.presale, discount⟩ := by
      refine except_bind_eq_ok_iff.2 ⟨mode, hmode, ?_⟩
      exact except_bind_eq_ok_iff.2 ⟨discount, hdiscount, rfl⟩
    exact ⟨some _, except_bind_eq_ok_iff.2 ⟨_, hw, rfl⟩⟩

/-- What is checked before the treasury is read can be converted with any decimals. -/
theorem exists_conversions {now : Int} {config : Config} {parts : LocalSettings}
    (h : LocalSettings.ofConfig now config = .ok parts) (decimals : UInt8) :
    (∃ units, Config.baseUnits config.price decimals = .ok units) ∧
      ∃ whitelist, Config.convert (Config.Whitelist.toMachine decimals) config.whitelist =
        .ok whitelist := by
  simp only [LocalSettings.ofConfig, except_bind_eq_ok_iff] at h
  obtain ⟨_, -, _, -, _, -, _, hprice, _, hwhitelist, -⟩ := h
  exact ⟨exists_baseUnits hprice decimals, exists_whitelist hwhitelist decimals⟩

/-- What is converted before the treasury is read can be put together with any treasury. -/
theorem exists_assemble {now : Int} {config : Config} {parts : LocalSettings}
    (h : LocalSettings.ofConfig now config = .ok parts) (treasury : Treasury) :
    ∃ settings, assemble config parts treasury = .ok settings := by
  obtain ⟨⟨units, hunits⟩, whitelist, hconvert⟩ := exists_conversions h treasury.decimals
  rw [assemble, hconvert, hunits]
  exact ⟨_, rfl⟩

end Settings

/-- A transaction that sets up this machine and does nothing else to machines. -/
structure Transaction.Creates (t : Transaction) (machine : Address) : Prop where
  createdMachines : t.createdMachines = [machine]
  lineCalls : t.lineCalls = []
  collectionCalls : t.collectionCalls = []

namespace Machine

theorem creates_creation (payer machine : Address) (settings : Settings) (data : MachineData)
    (space lamports : UInt64) :
    (creation payer machine settings data space lamports).Creates machine where
  createdMachines := createdMachines_creation ..
  lineCalls := lineCalls_creation ..
  collectionCalls := collectionCalls_creation ..

theorem initializeAt_runs {settings : Settings} {data : MachineData}
    {o : Except Failure Signature} (hw : w.Follows path es w')
    (h : (initializeAt payer machine settings data).Runs es o) :
    (∃ signature t, o = .ok signature ∧ t.Creates machine ∧ w' = w.sends [t] [t]) ∨
      ∃ e sent, o = .error e ∧ ¬e.IsAboutLines ∧ (∀ t ∈ sent, t.Creates machine) ∧
        w' = w.sends sent [] := by
  have hnone : w = w.sends [] [] := by simp [World.sends]
  unfold initializeAt at h
  split at h
  · obtain ⟨rfl, rfl⟩ := Script.runs_fail_iff.1 h
    obtain rfl := World.follows_nil.1 hw
    exact .inr ⟨_, [], rfl, id, by simp, hnone⟩
  · next space _ =>
    rcases hw.stages_of_only h (Script.quiet_rent space) with
      ⟨e, rfl, he, rfl⟩ | ⟨lamports, es₁, es₂, rfl, -, h₂, hw₂⟩
    · exact .inr ⟨e, [], rfl, he, by simp, hnone⟩
    rcases hw₂.stages_of_only h₂ (Script.quiet_balance payer) with
      ⟨e, rfl, he, rfl⟩ | ⟨balance, es₃, es₄, rfl, -, h₃, hw₃⟩
    · exact .inr ⟨e, [], rfl, he, by simp, hnone⟩
    split at h₃
    · obtain ⟨rfl, rfl⟩ := Script.runs_fail_iff.1 h₃
      obtain rfl := World.follows_nil.1 hw₃
      exact .inr ⟨_, [], rfl, id, by simp, hnone⟩
    · have hcreates := creates_creation payer machine settings data space lamports
      rcases hw₃.submit h₃ with ⟨signature, rfl, rfl⟩ | ⟨fault, rfl, rfl⟩
      · exact .inl ⟨signature, _, rfl, hcreates, rfl⟩
      · exact .inr ⟨_, _, rfl, id, fun t ht => List.mem_singleton.1 ht ▸ hcreates, rfl⟩

/-- **Creating a machine** sends one transaction or none, and gives the machine if it was accepted
and only then. -/
theorem create_runs {settings : Settings} {details : CollectionDetails} {items : UInt64}
    {o : Except Failure Address} (hw : w.Follows path es w')
    (h : (create payer settings details items).Runs es o) :
    (∃ machine t, o = .ok machine ∧ t.Creates machine ∧ w' = w.sends [t] [t]) ∨
      ∃ e sent, o = .error e ∧ ¬e.IsAboutLines ∧ (∀ t ∈ sent, ∃ m, t.Creates m) ∧
        w' = w.sends sent [] := by
  have hfresh : (Script.request .freshKey).Quiet := Script.only_request trivial
  rcases hw.stages_of_only h hfresh with ⟨_, rfl, he, rfl⟩ | ⟨machine, _, es', rfl, -, h₁, hw₁⟩
  · exact .inr ⟨_, [], rfl, he, by simp, by simp [World.sends]⟩
  rcases hw₁.stages h₁ with ⟨e, rfl, h₂⟩ | ⟨_, es₁, es₂, v, rfl, h₂, hv, hend, hw₂⟩
  · rcases initializeAt_runs hw₁ h₂ with ⟨_, _, ho, -⟩ | ⟨_, sent, ho, he, hsent, rfl⟩
    · cases ho
    · cases ho
      exact .inr ⟨e, sent, rfl, he, fun t ht => ⟨_, hsent t ht⟩, rfl⟩
  · obtain ⟨rfl, rfl⟩ := Script.runs_done_iff.1 hend
    obtain rfl := World.follows_nil.1 hw₂
    rcases initializeAt_runs hv h₂ with ⟨_, t, -, ht, rfl⟩ | ⟨_, _, ho, -⟩
    · exact .inl ⟨machine, t, rfl, ht, rfl⟩
    · cases ho

end Machine

namespace CollectionMint

/-- The record of a machine whose collection was set. -/
def recorded (mint : Address) (c : Cache) : Cache :=
  { c with program := { c.program with collectionMint := mint.text } }

/-- **Setting a collection** sends one transaction; the record says so if it was accepted and the
file could be written. -/
theorem setAndRecord_runs {o : Except Failure Cache}
    (hw : w.Follows c.path es w') (h : (setAndRecord payer machine mint c).Runs es o) :
    (o = .ok (recorded mint c).ordered ∧
        w' = (w.sends [setting payer machine mint] [setting payer machine mint]).saves
          (recorded mint c).ordered) ∨
      ∃ e, o = .error e ∧ ¬e.IsAboutLines ∧
        (w' = w.sends [setting payer machine mint] [] ∨
          w' = w.sends [setting payer machine mint] [setting payer machine mint] ∧
            ¬∀ e ∈ es, e.saves) := by
  rcases hw.stages h with ⟨e, rfl, hset⟩ | ⟨_, es₁, es₂, v, rfl, hset, hv, hsave, hw₂⟩
  · rcases hw.submit hset with ⟨_, ho, -⟩ | ⟨fault, ho, rfl⟩
    · cases ho
    · cases ho
      exact .inr ⟨_, rfl, id, .inl rfl⟩
  · rcases hv.submit hset with ⟨_, -, rfl⟩ | ⟨_, ho, -⟩
    · rcases World.Follows.save (c := recorded mint c) hw₂ hsave with
        ⟨rfl, rfl⟩ | ⟨reason, rfl, rfl, hsaves⟩
      · exact .inl ⟨rfl, rfl⟩
      · refine .inr ⟨_, rfl, id, .inr ⟨rfl, fun h => hsaves fun e he => h e ?_⟩⟩
        exact List.mem_append_right _ he
    · cases ho

/-- What setting a collection, if one is wanted, does to the world. -/
inductive Settled (payer machine : Address) (c : Cache) (w : World) (es : List Event) :
    World → Prop
  | same : Settled payer machine c w es w
  | refused (mint : Address) :
      Settled payer machine c w es (w.sends [setting payer machine mint] [])
  | unsaved (mint : Address) (h : ¬∀ e ∈ es, e.saves) :
      Settled payer machine c w es (w.sends [setting payer machine mint]
        [setting payer machine mint])
  | saved (mint : Address) :
      Settled payer machine c w es ((w.sends [setting payer machine mint]
        [setting payer machine mint]).saves (recorded mint c).ordered)

theorem setAndRecord_settled {o : Except Failure Cache} (hw : w.Follows c.path es w')
    (h : (setAndRecord payer machine mint c).Runs es o) :
    Settled payer machine c w es w' ∧
      ((∃ c', o = .ok c') ∨ ∃ e, o = .error e ∧ ¬e.IsAboutLines) := by
  rcases setAndRecord_runs hw h with ⟨rfl, rfl⟩ | ⟨e, rfl, he, rfl | ⟨rfl, hsaves⟩⟩
  · exact ⟨.saved mint, .inl ⟨_, rfl⟩⟩
  · exact ⟨.refused mint, .inr ⟨e, rfl, he⟩⟩
  · exact ⟨.unsaved mint hsaves, .inr ⟨e, rfl, he⟩⟩

theorem Settled.mono {fs : List Event} (h : Settled payer machine c w es w')
    (hsub : ∀ e ∈ es, e ∈ fs) : Settled payer machine c w fs w' := by
  cases h with
  | same => exact .same
  | refused mint => exact .refused mint
  | unsaved mint h => exact .unsaved mint fun hfs => h fun e he => hfs e (hsub e he)
  | saved mint => exact .saved mint

theorem Settled.out_eq (h : Settled payer machine c w es w') : w'.out = w.out := by
  cases h <;> rfl

/-- Setting a collection touches no line, and the items of the record stay what they are. -/
theorem Settled.items (h : Settled payer machine c w es w')
    (hrecord : w.record = .bytes (Bytes.ofText c.render)) :
    ∃ c' : Cache, w'.record = .bytes (Bytes.ofText c'.render) ∧ c'.machine = c.machine ∧
      ∀ k, c'.items.get? k = c.items.get? k := by
  cases h with
  | same => exact ⟨c, hrecord, rfl, fun _ => rfl⟩
  | refused mint => exact ⟨c, hrecord, rfl, fun _ => rfl⟩
  | unsaved mint h => exact ⟨c, hrecord, rfl, fun _ => rfl⟩
  | saved mint =>
    exact ⟨(recorded mint c).ordered, rfl, rfl, fun k => (recorded mint c).get?_ordered k⟩

/-- Whatever becomes of the collection, the record goes on naming its machine. -/
theorem Settled.candyMachine (h : Settled payer machine c w es w')
    (hrecord : w.record = .bytes (Bytes.ofText c.render)) :
    ∃ c' : Cache, w'.record = .bytes (Bytes.ofText c'.render) ∧
      c'.program.candyMachine = c.program.candyMachine := by
  cases h with
  | same => exact ⟨c, hrecord, rfl⟩
  | refused mint => exact ⟨c, hrecord, rfl⟩
  | unsaved mint h => exact ⟨c, hrecord, rfl⟩
  | saved mint => exact ⟨(recorded mint c).ordered, rfl, rfl⟩

theorem Settled.sends (h : Settled payer machine c w es w') :
    ∃ sent accepted, w'.sent = w.sent ++ sent ∧ w'.accepted = w.accepted ++ accepted ∧
      ∀ t ∈ sent ++ accepted, t.lineCalls = [] ∧ t.createdMachines = [] := by
  have hset : ∀ mint, (setting payer machine mint).lineCalls = [] ∧
      (setting payer machine mint).createdMachines = [] := fun mint =>
    ⟨lineCalls_setting .., createdMachines_setting ..⟩
  cases h with
  | same => exact ⟨[], [], by simp, by simp, by simp⟩
  | refused mint => exact ⟨[_], [], rfl, by simp [World.sends], by simpa using hset mint⟩
  | unsaved mint h => exact ⟨[_], [_], rfl, rfl, by simpa using hset mint⟩
  | saved mint => exact ⟨[_], [_], rfl, rfl, by simpa using hset mint⟩

end CollectionMint

end CandyDrop
