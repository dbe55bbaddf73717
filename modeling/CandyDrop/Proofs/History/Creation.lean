import CandyDrop.Proofs.Checks.Details
import CandyDrop.Proofs.History.Checked
import CandyDrop.Proofs.Machine.Layout

/-!
# The transaction that creates a machine

What a command asks for (`Order`) and the settings that it has resolved are the data of the machine
that it creates (`MachineData.Carries`). The account is made as large as these data need, with the
rent that was quoted for this size, and only if the payer has it. `Maker.creation_sent` says all this
of every transaction that sets up a machine, whichever command sends it.
-/

namespace CandyDrop

open Script

/-! ## What is asked for -/

/-- What the items of a new machine share, and how many there are. -/
structure Order where
  symbol : String
  sellerFeeBasisPoints : UInt16
  creators : List Config.Creator
  items : UInt64

/-- Details that pass their check are those of the order. -/
def Order.Allows (order : Order) (details : CollectionDetails) : Prop :=
  CollectionDetails.check order.symbol order.sellerFeeBasisPoints order.creators = .ok details

/-- Where an order comes from. A deployment is asked for all of it in the configuration. An upload
goes by the first manifest of its folder; the number of items, if the configuration does not give
it, is that of the images. -/
inductive Maker.Orders (config : Config) (es : List Event) : Maker → Order → Prop
  | deployment {items : UInt64} (hitems : config.number = some items) :
      Orders config es .deployment
        ⟨config.symbol, config.sellerFeeBasisPoints, config.creators, items⟩
  | upload {directory path : String} {rateLimit : Nat} {entries : List FolderEntry}
      {assets : Assets} {bs : Bytes} {manifest : Manifest}
      (hlisted : ⟨.list directory, some entries⟩ ∈ es)
      (hassets : Assets.ofEntries directory entries = .ok assets)
      (hfirst : assets.manifests.head? = some path)
      (hread : ⟨.read path, Content.bytes bs⟩ ∈ es)
      (hmanifest : Manifest.ofBytes? bs = some manifest) :
      Orders config es (.upload directory rateLimit)
        ⟨manifest.symbol, manifest.sellerFeeBasisPoints, manifest.creators,
          config.number.getD (UInt64.ofNat assets.images.length)⟩

/-- The data of a machine are made of settings and an order, and the address of the machine gives
them their name. -/
structure MachineData.Carries (settings : Settings) (order : Order) (machine : Address)
    (d : MachineData) : Prop where
  shortName : d.shortName = String.ofList (machine.text.toList.take 6)
  price : d.price = settings.price
  symbol : d.symbol = order.symbol
  sellerFee : d.sellerFeeBasisPoints = order.sellerFeeBasisPoints
  maxSupply : d.maxSupply = 0
  isMutable : d.isMutable = settings.isMutable
  retainAuthority : d.retainAuthority = settings.retainAuthority
  goLiveDate : d.goLiveDate = settings.goLiveDate
  endSettings : d.endSettings = settings.endSettings
  creators : List.Forall₂ Machine.Creator.StandsFor order.creators d.creators
  hiddenSettings : d.hiddenSettings = settings.hiddenSettings
  whitelist : d.whitelist = settings.whitelist
  items : d.itemsAvailable = order.items
  gatekeeper : d.gatekeeper = settings.gatekeeper

section

variable {payer machine : Address} {now : Int} {config : Config} {place : CachePlace}
  {choice : CollectionChoice} {before after es fs : List Event} {e : Event} {t : Transaction}
  {settings : Settings} {details : CollectionDetails} {order : Order} {items : UInt64}

theorem MachineData.carries_ofSettings (h : order.Allows details) (machine : Address) :
    (ofSettings settings details order.items machine.shortName).Carries settings order machine := by
  obtain ⟨hsymbol, hfee, hcreators⟩ := CollectionDetails.given_of_check h
  exact
    { shortName := rfl
      price := rfl
      symbol := hsymbol
      sellerFee := hfee
      maxSupply := rfl
      isMutable := rfl
      retainAuthority := rfl
      goLiveDate := rfl
      endSettings := rfl
      creators := hcreators
      hiddenSettings := rfl
      whitelist := rfl
      items := rfl
      gatekeeper := rfl }

theorem Maker.Orders.mono {maker : Maker} (h : maker.Orders config es order)
    (hsub : ∀ e ∈ es, e ∈ fs) : maker.Orders config fs order := by
  cases h with
  | deployment hitems => exact .deployment hitems
  | upload hlisted hassets hfirst hread hmanifest =>
    exact .upload (hsub _ hlisted) hassets hfirst (hsub _ hread) hmanifest

/-! ## What is planned is what is asked for -/

theorem Assets.items_of_checkCounts {assets : Assets} {storage : Storage}
    {number : Option UInt64} (h : assets.checkCounts storage number = .ok items) :
    items = number.getD (UInt64.ofNat assets.images.length) := by
  simp only [checkCounts] at h
  split at h
  · cases h
  · split at h
    · cases h
    · split at h
      · cases h
      · split at h
        · cases h
        · cases h
          rfl

theorem Upload.order_of_plan {directory : String} {rateLimit : Nat} {p : Upload.Plan}
    (h : (plan config ⟨directory, place, choice, rateLimit⟩).Runs es (.ok p)) :
    ∃ order, (Maker.upload directory rateLimit).Orders config es order ∧
      order.Allows p.details ∧ order.items = p.available := by
  obtain ⟨service, assets, manifests, base, hplanned⟩ := planned_of_runs h
  obtain ⟨entries, hlisted, hentries⟩ := hplanned.listed
  have hitems := Assets.items_of_checkCounts hplanned.available
  have hdetails := hplanned.details
  have halong := hplanned.readAlong
  generalize hpaths : assets.manifests = paths at halong
  cases halong with
  | nil => cases hdetails
  | @cons path bs manifest paths manifests hread hmanifest rest =>
    have hfirst : assets.manifests.head? = some path := by rw [hpaths, List.head?_cons]
    exact ⟨_, .upload hlisted hentries hfirst hread hmanifest, hdetails, hitems.symm⟩

theorem Deploy.order_of_plan {p : Deploy.Plan} (h : plan config choice = .ok p) :
    ∃ order, Maker.deployment.Orders config es order ∧ order.Allows p.details ∧
      order.items = p.items := by
  obtain ⟨hdetails, -, hitems⟩ := plan_eq_ok_iff.1 h
  exact ⟨_, .deployment hitems, hdetails, rfl⟩

theorem Maker.Plans.exists_order {maker : Maker} {plan : Deploy.Plan}
    (h : maker.Plans config place choice es plan) :
    ∃ order, maker.Orders config es order ∧ order.Allows plan.details ∧
      order.items = plan.items := by
  cases maker with
  | deployment => exact Deploy.order_of_plan h
  | upload directory rateLimit =>
    obtain ⟨p, ⟨gs, hgs, hrun⟩, rfl⟩ := h
    obtain ⟨order, horder, hallows, hitems⟩ := Upload.order_of_plan hrun
    exact ⟨order, horder.mono fun e he => hgs.subset he, hallows, hitems⟩

/-! ## What is sent -/

namespace Instruction

/-- A call that makes an account: who pays for it and which account it is, the lamports that it gets,
its size and the program that it belongs to. -/
structure AccountCall where
  payer : AccountUse
  account : AccountUse
  lamports : UInt64
  space : UInt64
  owner : Address

open Borsh.Decoder in
/-- The arguments of a call that makes an account. -/
def accountArguments : Borsh.Decoder (UInt64 × UInt64 × Address) := do
  match ← u32 with
  | 0 => return (← u64, ← u64, ← address)
  | _ => failure

/-- The account that an instruction makes. -/
def accountCall? (i : Instruction) : Option AccountCall :=
  match i.accounts with
  | [payer, account] =>
    if i.program = Address.systemProgram then
      (accountArguments i.data).map fun ((lamports, space, owner), _) =>
        ⟨payer, account, lamports, space, owner⟩
    else none
  | _ => none

open Borsh.Decoder in
theorem takes_accountArguments (lamports space : UInt64) (owner : Address) :
    accountArguments.Takes
      (Borsh.u32 0 ++ (Borsh.u64 lamports ++ (Borsh.u64 space ++ Borsh.address owner)))
      (lamports, space, owner) :=
  (takes_u32 (by decide)).bind ((takes_u64 _).bind ((takes_u64 _).bind ((takes_address _).last _)))

theorem accountCall?_createAccount (payer account owner : Address) (lamports space : UInt64) :
    (createAccount payer account lamports space owner).accountCall? =
      some ⟨.signsAndWrites payer, .signsAndWrites account, lamports, space, owner⟩ := by
  have htakes := takes_accountArguments lamports space owner []
  rw [accountCall?, createAccount]
  simp only [if_true]
  rw [List.append_assoc, List.append_assoc, ← List.append_nil (_ ++ _), htakes, Option.map_some]

end Instruction

/-- Two instructions: the first one makes an account of some size with some lamports for the
program, the second one sets up a machine in it, which pays to the wallet of the settings and names
its token, if there is one. The data are what the second one was given and what is read from it, if
their texts can be counted in four bytes. -/
structure Transaction.SetsUp (payer machine : Address) (settings : Settings) (data : MachineData)
    (space lamports : UInt64) (t : Transaction) : Prop where
  instructions : ∃ create setup : Instruction, t.instructions = [create, setup] ∧
    create.accountCall? = some ⟨.signsAndWrites payer, .signsAndWrites machine, lamports, space,
      Address.candyMachineProgram⟩ ∧
    setup.arguments? "initialize_candy_machine" = some data.encode ∧
    (data.IsCountable → setup.machineData? = some data) ∧
    setup.accounts = [.writes machine, .reads settings.wallet, .reads payer, .signs payer,
      .reads Address.systemProgram, .reads Address.rentSysvar] ++
        (settings.tokenMint.map AccountUse.reads).toList
  signers : t.signers = [machine]

namespace Machine

theorem setsUp_creation (payer machine : Address) (settings : Settings) (data : MachineData)
    (space lamports : UInt64) :
    (creation payer machine settings data space lamports).SetsUp payer machine settings data space
      lamports where
  instructions := ⟨_, _, rfl, Instruction.accountCall?_createAccount ..,
    Instruction.arguments?_machineCall_self .., Instruction.machineData?_initializeMachine, rfl⟩
  signers := rfl

/-- The answers that a machine is created on: its key is new, the size of its data has a rent, and
the payer can pay it. -/
structure Affordable (payer machine : Address) (data : MachineData) (space lamports : UInt64)
    (es : List Event) : Prop where
  size : data.space? = some space
  answers : ∃ balance, es = [⟨.freshKey, machine⟩, ⟨.rent space, .ok lamports⟩,
    ⟨.balance payer, .ok balance⟩] ∧ lamports ≤ balance

/-- Creating a machine sends nothing but the transaction that does so, and only if the size of the
account is known and can be paid for. -/
theorem create_sent {o : Except Failure Address}
    (h : (create payer settings details items).Runs (before ++ e :: after) o)
    (ht : e.request.sent? = some t) :
    ∃ machine space lamports,
      let data := MachineData.ofSettings settings details items machine.shortName
      Affordable payer machine data space lamports before ∧
        t = creation payer machine settings data space lamports := by
  have hfresh : (request .freshKey).Quiet := only_request trivial
  obtain ⟨machine, es₁, es₂, rfl, hkey, h₁⟩ := h.split_sent hfresh ht
  obtain ⟨_, rfl, ho⟩ := runs_request_iff.1 hkey
  cases ho
  rcases h₁.split_bind with ⟨after', o', -, hinit⟩ | ⟨_, es₃, es₄, -, -, hend⟩
  · unfold initializeAt at hinit
    split at hinit
    · exact (not_runs_fail hinit).elim
    · next space hspace =>
      obtain ⟨lamports, es₃, es₄, rfl, hrent, h₂⟩ := hinit.split_sent (quiet_rent space) ht
      obtain ⟨balance, es₅, es₆, rfl, hbalance, h₃⟩ := h₂.split_sent (quiet_balance payer) ht
      obtain ⟨_, rfl, ho⟩ := runs_rent_iff.1 hrent
      obtain rfl := mapError_eq_ok_iff.1 ho.symm
      obtain ⟨_, rfl, ho⟩ := runs_balance_iff.1 hbalance
      obtain rfl := mapError_eq_ok_iff.1 ho.symm
      split at h₃
      · exact (not_runs_fail h₃).elim
      · next hpays =>
        obtain ⟨answer, hes, -⟩ := runs_submit_iff.1 h₃
        obtain ⟨rfl, rfl, -⟩ : es₆ = [] ∧ e = ⟨.submit _, answer⟩ ∧ after' = [] := by
          cases es₆ <;> simp_all
        cases ht
        exact ⟨machine, space, lamports, ⟨hspace, balance, rfl, UInt64.not_lt.1 hpays⟩, rfl⟩
  · exact (not_runs_done hend).elim

end Machine

/-- What sets up a machine was checked, is paid for and is made of what was checked. -/
theorem Maker.machine_sent {maker : Maker} {o : Except Failure Address}
    (hrun : (maker.script payer now config place choice).Runs (before ++ e :: after) o)
    (ht : e.request.sent? = some t) (hcreated : machine ∈ t.createdMachines) :
    ∃ plan settings es₁ es₂ space lamports, before = es₁ ++ es₂ ∧
      maker.Checked payer now config place choice es₁ plan settings ∧
      let data := MachineData.ofSettings settings plan.details plan.items machine.shortName
      Machine.Affordable payer machine data space lamports es₂ ∧
        t.SetsUp payer machine settings data space lamports := by
  obtain ⟨plan, settings, es₁, es₂, rfl, hchecked, hfurther | ⟨after', o', hcreate⟩⟩ :=
    run_sent hrun ht
  · rw [hfurther.createdMachines] at hcreated
    cases hcreated
  obtain ⟨m, space, lamports, haffordable, rfl⟩ := Machine.create_sent hcreate ht
  rw [Machine.createdMachines_creation, List.mem_singleton] at hcreated
  subst hcreated
  exact ⟨plan, settings, es₁, es₂, space, lamports, rfl, hchecked, haffordable,
    Machine.setsUp_creation ..⟩

/-- **The transaction that creates a machine.** When a deployment or an upload sends a transaction
that sets up a machine, its order has passed the check of details, its collection, if it asks for
one, the check of collections, and its settings are resolved. Then come a new key, which is that of
the machine, the rent of the size that the data of the machine need, and the balance of the payer,
which covers it. The data carry the settings and the order, and the transaction makes an account of
this size with this rent for the program and sets up the machine in it with these data. -/
theorem Maker.creation_sent {maker : Maker} {o : Except Failure Address}
    (hrun : (maker.script payer now config place choice).Runs (before ++ e :: after) o)
    (ht : e.request.sent? = some t) (hcreated : machine ∈ t.createdMachines) :
    ∃ es₁ es₂ order details collection settings data space lamports, before = es₁ ++ es₂ ∧
      maker.Orders config es₁ order ∧ order.Allows details ∧
      CollectionMint.parse choice.mint = .ok collection ∧
      (∀ mint ∈ collection, (CollectionMint.check payer mint).DoneIn () es₁) ∧
      (Settings.resolve config payer now).DoneIn settings es₁ ∧
      Machine.Affordable payer machine data space lamports es₂ ∧
      data.Carries settings order machine ∧
      t.SetsUp payer machine settings data space lamports := by
  obtain ⟨plan, settings, es₁, es₂, space, lamports, rfl, hchecked, haffordable, hsetsUp⟩ :=
    machine_sent hrun ht hcreated
  obtain ⟨order, horder, hallows, hitems⟩ := hchecked.plans.exists_order
  rw [← hitems] at haffordable hsetsUp
  exact ⟨es₁, es₂, order, plan.details, plan.collection, settings, _, space, lamports, rfl, horder,
    hallows, hchecked.plans.parse, hchecked.verified, hchecked.settings, haffordable,
    MachineData.carries_ofSettings hallows machine, hsetsUp⟩

end

/-- Along a transcript it can be computed whether some transaction creates a machine. -/
theorem exists_creation {machine : Address} {es : List Event}
    (h : (es.any fun e => e.request.sent?.any fun t => machine ∈ t.createdMachines) = true) :
    ∃ before e after t, es = before ++ e :: after ∧ e.request.sent? = some t ∧
      machine ∈ t.createdMachines := by
  obtain ⟨e, he, hcreates⟩ := List.any_eq_true.1 h
  obtain ⟨t, ht, hcreated⟩ := (Option.any_eq_true ..).1 hcreates
  obtain ⟨before, after, hes⟩ := List.append_of_mem he
  exact ⟨before, e, after, t, hes, ht, of_decide_eq_true hcreated⟩

/-- A deployment for one item sends the transaction that sets up its machine. -/
theorem Maker.creation_sent_one :
    ∃ es o t data space lamports settings order,
      (Maker.deployment.script Sample.payer 0 Sample.config Sample.place Sample.choice).Runs es o ∧
      (∃ e ∈ es, e.request.sent? = some t) ∧ data.Carries settings order (Ledger.newKey 1) ∧
      t.SetsUp Sample.payer (Ledger.newKey 1) settings data space lamports ∧
      order.symbol = "S" ∧ data.itemsAvailable = 1 := by
  have hrun : (Maker.deployment.script Sample.payer 0 Sample.config Sample.place
      Sample.choice).Runs _ _ :=
    Ledger.runs_transcript Sample.deploy { Ledger.blank with keys := 1 }
  obtain ⟨before, e, after, t, hes, ht, hcreated⟩ : ∃ before e after t,
      (Ledger.transcript Sample.deploy { Ledger.blank with keys := 1 }).1 = before ++ e :: after ∧
        e.request.sent? = some t ∧ Ledger.newKey 1 ∈ t.createdMachines :=
    exists_creation (by decide +kernel)
  rw [hes] at hrun
  obtain ⟨_, _, order, _, _, settings, data, space, lamports, -, horder, -, -, -, -, -, hcarries,
    hsetsUp⟩ := Maker.creation_sent hrun ht hcreated
  refine ⟨_, _, t, data, space, lamports, settings, order, hrun, ⟨e, by simp, ht⟩, hcarries,
    hsetsUp, ?_⟩
  rw [hcarries.items]
  cases horder with
  | deployment hitems => exact ⟨rfl, (Option.some.inj hitems).symm⟩

end CandyDrop
