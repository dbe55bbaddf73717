import CandyDrop.Proofs.History.Sent
import CandyDrop.Proofs.Machine.Layout
import CandyDrop.Proofs.Upload.Records
import CandyDrop.Proofs.Upload.Written

/-!
# Room for lines

A machine has room for the lines of as many items as it was set up for, and for none if its items are
hidden. Both are decided by the command that creates it. A later upload goes by its own configuration
and folder and does not look at what the machine was set up for, so that its lines need not fit
(`Commands.lines_need_not_fit`). They do if every upload to a recorded machine finds the room that it
needs (`Commands.lines_fit`): the machine that a record names was set up by one of the commands
(`World.Kept`), and one that an upload creates has room for all of its lines.
-/

namespace CandyDrop

open Upload CollectionMint Script

/-! ## Room -/

namespace Accepted

/-- The machine was set up with these data by one of the transactions. -/
def Initialized (ts : List Transaction) (machine : Address) (data : MachineData) : Prop :=
  ∃ t ∈ ts, t.Initializes machine data

/-- The machine of a call was set up without hidden settings, and for more items than any position
that the call writes to. -/
def HasRoom (ts : List Transaction) (call : LineCall) : Prop :=
  ∃ data, Initialized ts call.machine data ∧ data.hiddenSettings = none ∧
    ∀ e ∈ call.entries, e.1 < data.itemsAvailable.toNat

variable {ts us : List Transaction} {machine : Address} {data : MachineData} {call : LineCall}

theorem Created.mono (h : Created ts machine) (hsub : ts ⊆ us) : Created us machine := by
  obtain ⟨t, ht, hm⟩ := h
  exact ⟨t, hsub ht, hm⟩

theorem Initialized.mono (h : Initialized ts machine data) (hsub : ts ⊆ us) :
    Initialized us machine data := by
  obtain ⟨t, ht, hm⟩ := h
  exact ⟨t, hsub ht, hm⟩

theorem HasRoom.mono (h : HasRoom ts call) (hsub : ts ⊆ us) : HasRoom us call := by
  obtain ⟨data, hdata, hroom⟩ := h
  exact ⟨data, hdata.mono hsub, hroom⟩

/-- A batch that ends early enough has room. -/
theorem HasRoom.of_endsBy {batch : Batch} {count : Nat} (hdata : Initialized ts machine data)
    (hhidden : data.hiddenSettings = none) (hbatch : batch.EndsBy count)
    (hcount : count ≤ data.itemsAvailable.toNat) : HasRoom ts (batch.call machine) := by
  refine ⟨data, hdata, hhidden, fun e he => ?_⟩
  cases batch with
  | nil => cases he
  | cons l ls =>
    obtain ⟨i, _, hi, rfl⟩ := LineCall.mem_entriesFrom_iff.1 he
    have hend := hbatch l rfl
    have hlt := (List.getElem?_eq_some_iff.1 hi).1
    simp only [Batch.call, List.length_map, List.head?_cons, Option.map_some,
      Option.getD_some] at hlt ⊢
    omega

end Accepted

/-- What is known of all data that can be read from some transactions holds of the data of a
machine. -/
theorem Accepted.Initialized.of_forall {ts : List Transaction} {machine : Address}
    {data : MachineData} {Q : MachineData → Prop} (h : Initialized ts machine data)
    (hts : ∀ t ∈ ts, ∀ i ∈ t.instructions, i.data.length < 2 ^ 32 ∧ ∀ d ∈ i.machineData?, Q d) :
    Q data := by
  obtain ⟨t, ht, wallet, payer, tokenMint, hi⟩ := h
  obtain ⟨hlength, hQ⟩ := hts t ht _ hi
  have hencode : data.encode.length < 2 ^ 32 := by
    simp only [Instruction.initializeMachine, Instruction.machineCall, List.length_append] at hlength
    omega
  exact hQ data
    (Instruction.machineData?_initializeMachine (MachineData.isCountable_of_length hencode))

/-- How many manifests there are, if a folder is listed. -/
def Event.manifestCount? : Event → Option Nat
  | ⟨.list path, some entries⟩ =>
    match Assets.ofEntries path entries with
    | .ok assets => some assets.manifests.length
    | .error _ => none
  | _ => none

theorem Upload.Found.manifestCount {config : Config} {options : Options} {es : List Event}
    {assets : Assets} {manifests : List Manifest} {lines : List (String × String)}
    (h : Found config options es assets manifests lines) :
    ∃ e ∈ es, e.manifestCount? = some lines.length := by
  obtain ⟨entries, hlisted, hentries⟩ := h.listed
  refine ⟨_, hlisted, ?_⟩
  rw [h.length_eq.2]
  simp [Event.manifestCount?, hentries]

namespace World

/-- The record in a world can be read and names this machine. -/
def Recorded (place : CachePlace) (w : World) (machine : Address) : Prop :=
  ∃ c : Cache, Cache.ofContent place.path place.env place.name true w.record = .ok c ∧
    c.machine = .ok (some machine)

/-- If a machine is recorded and the configuration does not hide the items, the machine was set up
without hidden settings and for as many items as the upload finds manifests. -/
def HasRoom (place : CachePlace) (w : World) (config : Config) (es : List Event) : Prop :=
  config.hiddenSettings = none → ∀ machine data, w.Recorded place machine →
    Accepted.Initialized w.accepted machine data →
      data.hiddenSettings = none ∧
        ∀ e ∈ es, ∀ n ∈ e.manifestCount?, n ≤ data.itemsAvailable.toNat

/-! ## What every command keeps -/

/-- The state of a drop between commands, whatever became of them: nothing is out, what was accepted
was made by the commands, and the machine that the record names was created. -/
structure Kept (w : World) : Prop where
  nothingOut : w.out = []
  own : ∀ t ∈ w.accepted, ∃ payer, t.IsOwn payer
  record : w.record = .missing ∨ ∃ machine, w.Names machine ∧ Accepted.Created w.accepted machine

/-- What a command does to the record: nothing, or the record names a machine that was recorded or
created before. -/
structure Keeps (place : CachePlace) (w w' : World) : Prop where
  nothingOut : w'.out = []
  record : w'.record = w.record ∨ ∃ machine, w'.Names machine ∧
    (w.Recorded place machine ∨ Accepted.Created w'.accepted machine)

variable {place : CachePlace} {w w' : World} {machine payer : Address} {es : List Event}
  {c : Cache}

theorem kept_start : (start .missing).Kept := ⟨rfl, by simp [start], .inl rfl⟩

theorem Names.recorded (h : w.Names machine) (place : CachePlace) : w.Recorded place machine := by
  obtain ⟨c, hrecord, hc⟩ := h
  refine ⟨{ c with path := place.path }, ?_, hc⟩
  rw [hrecord, Cache.ofContent, Cache.ofBytes?_render]

/-- The recorded machine was created by one of the commands. -/
theorem Kept.created (h : w.Kept) (hm : w.Recorded place machine) :
    Accepted.Created w.accepted machine := by
  obtain ⟨c, hload, hc⟩ := hm
  rcases h.record with hmissing | ⟨m, hnames, hcreated⟩
  · rw [hmissing] at hload
    cases hload
    cases hc
  · obtain ⟨c', hload', hc'⟩ := hnames.recorded place
    rw [hload] at hload'
    cases hload'
    rw [hc] at hc'
    cases hc'
    exact hcreated

theorem Kept.initialized (h : w.Kept) (hm : w.Recorded place machine) :
    ∃ data, Accepted.Initialized w.accepted machine data := by
  obtain ⟨t, ht, hmem⟩ := h.created hm
  obtain ⟨payer, hown⟩ := h.own t ht
  obtain ⟨data, hdata⟩ := hown.initializes hmem
  exact ⟨data, t, ht, hdata⟩

/-- **Commands keep this**, since they send only their own transactions. -/
theorem Kept.of_keeps (h : w.Kept) (hkeeps : w.Keeps place w') (hw : w.Follows place.path es w')
    (hsends : ∀ e ∈ es, e.request.Sends (Transaction.IsOwn payer)) : w'.Kept := by
  obtain ⟨ts, haccepted, hts⟩ := hw.accepted_of_sends (by simp [h.nothingOut]) hsends
  have hsub := hw.accepted_subset
  refine ⟨hkeeps.nothingOut, fun t ht => ?_, ?_⟩
  · rw [haccepted] at ht
    rcases List.mem_append.1 ht with ht | ht
    · exact h.own t ht
    · exact ⟨payer, hts t ht⟩
  · rcases hkeeps.record with hsame | ⟨machine, hnames, hm | hcreated⟩
    · rw [hsame]
      exact h.record.imp id fun ⟨m, hnames, hcreated⟩ =>
        ⟨m, by rwa [Names, hsame], hcreated.mono hsub⟩
    · exact .inr ⟨machine, hnames, (h.created hm).mono hsub⟩
    · exact .inr ⟨machine, hnames, hcreated⟩

end World

/-! ## Deployments -/

section

variable {place : CachePlace} {w w' : World} {machine payer m : Address} {es : List Event}
  {c : Cache}

theorem CollectionMint.Settled.names (h : Settled payer machine c w es w')
    (hrecord : w.record = .bytes (Bytes.ofText c.render)) (hc : c.machine = .ok (some m)) :
    w'.Names m := by
  obtain ⟨c', hrecord', hmachine, -⟩ := h.items hrecord
  exact ⟨c', hrecord', hmachine.trans hc⟩

theorem Transaction.Creates.created {t : Transaction} (h : t.Creates machine)
    {ts : List Transaction} (ht : t ∈ ts) : Accepted.Created ts machine :=
  ⟨t, ht, by rw [h.createdMachines]; exact List.mem_singleton_self machine⟩

namespace Deploy

theorem Deployed.keeps (h : Deployed payer place w es w') (hout : w.out = []) :
    w.Keeps place w' := by
  cases h with
  | stopped hsent => exact ⟨hout, .inl rfl⟩
  | unrecorded ht => exact ⟨hout, .inl rfl⟩
  | @recorded machine t c _ ht hload hsettled =>
    have hm : (record machine c).ordered.machine = .ok (some machine) := machine_of_text rfl
    have hnames := hsettled.names rfl hm
    obtain ⟨_, accepted, -, haccepted, -⟩ := hsettled.sends
    refine ⟨hsettled.out_eq.trans hout, .inr ⟨machine, hnames, .inr (ht.created ?_)⟩⟩
    rw [haccepted]
    exact List.mem_append_left _ (List.mem_append_right _ (List.mem_singleton_self t))

/-- A deployment writes no lines. -/
theorem Deployed.lineCalls_sent (h : Deployed payer place w es w') :
    w'.sent.flatMap Transaction.lineCalls = w.sent.flatMap Transaction.lineCalls := by
  cases h with
  | stopped hsent =>
    have hnone := lineCalls_of_forall_nil fun t ht => (hsent t ht).elim fun _ h => h.lineCalls
    simp [World.sends, hnone]
  | unrecorded ht => simp [World.sends, ht.lineCalls]
  | recorded ht hload hsettled =>
    obtain ⟨sent, accepted, hsent, -, hnone⟩ := hsettled.sends
    have hnone := lineCalls_of_forall_nil fun t h => (hnone t (List.mem_append_left _ h)).1
    simp [hsent, World.sends, World.saves, hnone, ht.lineCalls]

end Deploy

/-! ## Uploads -/

namespace Upload

variable {config : Config} {options : Options} {now : Int} {s : Survey} {assets : Assets}
  {manifests : List Manifest} {lines : List (String × String)} {p : Prepared} {v v₁ : World}
  {t : Schedule.Tally} {o : Except Failure Address} {b : Batch}

/-- The machine of an upload was recorded or created before anything is written to it. -/
theorem Ready.known (h : Ready config options es w s machine c w' assets manifests lines) :
    w.Recorded options.place machine ∨ Accepted.Created w'.accepted machine := by
  obtain ⟨hsurveyed, hopened⟩ := h
  cases hopened with
  | recorded hm => exact .inl ⟨s.cache, hsurveyed.cache, hm⟩
  | created hm ht => exact .inr (ht.created (List.mem_append_right _ List.mem_cons_self))

theorem Ready.names (h : Ready config options es w s machine c w' assets manifests lines) :
    w'.Names machine := ⟨c, h.opened.record_eq, h.opened.machine_eq⟩

theorem Ready.keeps (h : Ready config options es w s machine c w' assets manifests lines)
    (hout : w.out = []) : w.Keeps options.place w' :=
  ⟨h.opened.out_eq.trans hout, .inr ⟨machine, h.names, h.known⟩⟩

/-- An upload leaves a record of its machine, if it changes it at all. -/
theorem run_keeps (h : (run payer now config options).Runs es o) (hout : w.out = [])
    (hw : w.Follows options.path es w') : w.Keeps options.place w' := by
  rw [run_eq_prepare_bind_finish] at h
  rcases runs_bind_iff.1 h with ⟨e, -, hprepare⟩ | ⟨p, es₁, es₂, rfl, hprepare, hfinish⟩
  · rcases prepare_runs hw hprepare with ⟨s, machine, c, _, _, _, hready, -⟩ | ⟨_, _, _, -, -, hstop⟩
    · exact hready.keeps hout
    · obtain rfl := hstop.world
      exact ⟨hout, .inl rfl⟩
  · obtain ⟨_, _, _, _, _, _, _, hperformed⟩ := performed_of_prepared hout hw hprepare hfinish
    obtain ⟨v, hv, hw₂⟩ := World.follows_append.1 hw
    rcases prepare_runs hv hprepare with ⟨s, machine, c, _, _, _, hready, ho⟩ | ⟨_, _, _, ho, -⟩
    · obtain ⟨bs, -, ho⟩ | ⟨_, -, ho⟩ := ho
      · cases ho
        have hnames := finish_names hw₂ hfinish hready.opened.record_eq hready.opened.machine_eq
        refine ⟨hperformed.nothingOut, .inr ⟨machine, hnames, hready.known.imp id fun h => ?_⟩⟩
        exact h.mono hw₂.accepted_subset
      · cases ho
    · cases ho

/-- A batch of an upload ends where its manifests do, and there are none if the items are hidden. -/
theorem Performed.endsBy
    (h : Performed payer config options es w p v v₁ w' o c t assets manifests lines)
    (hb : b ∈ p.batches) :
    p.survey.settings.hiddenSettings = none ∧ config.hiddenSettings = none ∧
      b.EndsBy (UInt64.ofNat p.survey.plan.count).toNat := by
  have hbatches := h.batches
  have hsame := h.ready.surveyed.hidden
  unfold Upload.batches at hbatches
  split at hbatches
  · rw [← Except.ok.inj hbatches] at hb
    cases hb
  · next hhidden =>
    rw [Bool.not_eq_true] at hhidden
    rw [hhidden] at hsame
    exact ⟨Option.isSome_eq_false_iff.1 hhidden |> Option.isNone_iff_eq_none.1,
      Option.isSome_eq_false_iff.1 hsame.symm |> Option.isNone_iff_eq_none.1,
      Batch.endsBy_of_ofItems hbatches b hb⟩

/-- The first half of an upload writes no lines. -/
theorem prepare_lineCalls {o : Except Failure Prepared} (hw : w.Follows options.path es w')
    (h : (prepare payer now config options).Runs es o) :
    w'.sent.flatMap Transaction.lineCalls = w.sent.flatMap Transaction.lineCalls := by
  rcases prepare_runs hw h with ⟨_, _, _, _, _, _, hready, -⟩ | ⟨_, sent, _, -, -, hstop⟩
  · obtain ⟨ts, hsent, -, hopens⟩ := hready.opened.sends
    rw [hsent, List.flatMap_append, lineCalls_of_forall_nil hopens.lineCalls, List.append_nil]
  · have hnone := lineCalls_of_forall_nil fun t ht =>
      (hstop.creates_of_sent t ht).elim fun _ h => h.lineCalls
    rw [hstop.world]
    simp [World.sends, hnone]

/-- The machine of an upload that is ready to write was set up for its lines: by the upload itself, or
by an earlier command if the recorded machine has room. -/
theorem prepare_initialized (hprepare : (prepare payer now config options).Runs es (.ok p))
    (hkept : w.Kept) (hroom : w.HasRoom options.place config es)
    (hw : w.Follows options.path es v) (hhidden : p.survey.settings.hiddenSettings = none)
    (hconfig : config.hiddenSettings = none) :
    ∃ data, Accepted.Initialized v.accepted p.machine data ∧ data.hiddenSettings = none ∧
      (UInt64.ofNat p.survey.plan.count).toNat ≤ data.itemsAvailable.toNat := by
  rcases prepare_runs hw hprepare with ⟨s, machine, c, _, _, _, hready, ho⟩ | ⟨_, _, _, ho, -⟩
  · have hp : p.survey = s ∧ p.machine = machine := by
      obtain ⟨bs, -, ho⟩ | ⟨_, -, ho⟩ := ho
      · cases ho
        exact ⟨rfl, rfl⟩
      · cases ho
    obtain ⟨rfl, rfl⟩ := hp
    obtain ⟨ts, -, -, hopens⟩ := hready.opened.sends
    rcases hopens.of_merge.machine_old with hnone | hsome
    · obtain ⟨t, ht, hcreation, hm⟩ := prepare_creates hw hkept.nothingOut hprepare hnone
      exact ⟨_, ⟨t, ht, hcreation.initializes hm⟩, hhidden,
        UInt64.le_iff_toNat_le.1 hready.surveyed.available⟩
    · have hrecorded : w.Recorded options.place p.machine := ⟨_, hready.surveyed.cache, hsome⟩
      obtain ⟨data, hdata⟩ := hkept.initialized hrecorded
      obtain ⟨hdataHidden, hcount⟩ := hroom hconfig p.machine data hrecorded hdata
      obtain ⟨e, he, hlisted⟩ := hready.surveyed.found.manifestCount
      refine ⟨data, hdata.mono hw.accepted_subset, hdataHidden, ?_⟩
      rw [hready.surveyed.count, UInt64.toNat_ofNat']
      exact Nat.le_trans (Nat.mod_le _ _) (hcount e he _ hlisted)
  · cases ho

/-- **The lines of an upload have room**, if its machine is new or had room for them. -/
theorem run_hasRoom (h : (run payer now config options).Runs es o) (hkept : w.Kept)
    (hroom : w.HasRoom options.place config es) (hw : w.Follows options.path es w') :
    ∀ call ∈ w'.sent.flatMap Transaction.lineCalls,
      call ∈ w.sent.flatMap Transaction.lineCalls ∨ Accepted.HasRoom w'.accepted call := by
  rw [run_eq_prepare_bind_finish] at h
  rcases runs_bind_iff.1 h with ⟨e, -, hprepare⟩ | ⟨p, es₁, es₂, rfl, hprepare, hfinish⟩
  · rw [prepare_lineCalls hw hprepare]
    exact fun call hcall => .inl hcall
  · obtain ⟨_, _, c, t, assets, manifests, lines, hperformed⟩ :=
      performed_of_prepared hkept.nothingOut hw hprepare hfinish
    obtain ⟨v, hv, hw₂⟩ := World.follows_append.1 hw
    have hroom₁ : w.HasRoom options.place config es₁ := fun hconfig machine data hm hdata =>
      (hroom hconfig machine data hm hdata).imp id fun hcount e he =>
        hcount e (List.mem_append_left _ he)
    rw [hperformed.lineCalls_sent]
    intro call hcall
    refine (List.mem_append.1 hcall).imp id fun hcall => ?_
    obtain ⟨b, hb, rfl⟩ := List.mem_map.1 hcall
    have hmem : b ∈ p.batches := by
      rw [hperformed.written.batches_eq]
      exact List.mem_append_left _ hb
    obtain ⟨hhidden, hconfig, hend⟩ := hperformed.endsBy hmem
    obtain ⟨data, hdata, hdataHidden, hcount⟩ :=
      prepare_initialized hprepare hkept hroom₁ hv hhidden hconfig
    exact .of_endsBy (hdata.mono hw₂.accepted_subset) hdataHidden hend hcount

end Upload

end

/-! ## Sequences of commands -/

/-- The worlds that are reached from one without a record by deployments and uploads with the same
place for their record. Each command has its own configuration, collection and options and may end in
any way. An upload is only run if its world, its configuration and its transcript satisfy `P`. -/
inductive Commands (place : CachePlace) (P : World → Config → List Event → Prop) : World → Prop
  | start : Commands place P (.start .missing)
  | deploy {w w' : World} {payer : Address} {now : Int} {config : Config}
      {choice : CollectionChoice} {es : List Event} {o : Except Failure Address}
      (hw : Commands place P w) (hrun : (Deploy.run payer now config place choice).Runs es o)
      (hfollows : w.Follows place.path es w') : Commands place P w'
  | upload {w w' : World} {payer : Address} {now : Int} {config : Config} {directory : String}
      {choice : CollectionChoice} {rateLimit : Nat} {es : List Event}
      {o : Except Failure Address} (hw : Commands place P w)
      (hrun : (Upload.run payer now config ⟨directory, place, choice, rateLimit⟩).Runs es o)
      (hfollows : w.Follows place.path es w') (hP : P w config es) : Commands place P w'

namespace Commands

variable {place : CachePlace} {P : World → Config → List Event → Prop} {w : World}

theorem kept (h : Commands place P w) : w.Kept := by
  induction h with
  | start => exact World.kept_start
  | deploy _ hrun hfollows ih =>
    have hkeeps := (Deploy.run_runs hfollows hrun).keeps ih.nothingOut
    exact ih.of_keeps hkeeps hfollows (hrun.forall_request (Deploy.only_run ..))
  | upload _ hrun hfollows _ ih =>
    have hkeeps := Upload.run_keeps hrun ih.nothingOut hfollows
    exact ih.of_keeps hkeeps hfollows (hrun.forall_request (Upload.only_run ..))

/-- **Lines have room in the machine that they are sent to**, after any sequence of deployments and
uploads in which each upload to a recorded machine finds room: if its configuration does not hide the
items, the recorded machine was set up without hidden settings and for as many items as there are
manifests. Then every call that was sent is to a machine that was set up, without hidden settings, for
more items than any position that the call writes to. -/
theorem lines_fit (h : Commands place (World.HasRoom place) w) :
    ∀ call ∈ w.sent.flatMap Transaction.lineCalls, Accepted.HasRoom w.accepted call := by
  induction h with
  | start => simp [World.start]
  | deploy hw hrun hfollows ih =>
    intro call hcall
    rw [(Deploy.run_runs hfollows hrun).lineCalls_sent] at hcall
    exact (ih call hcall).mono hfollows.accepted_subset
  | upload hw hrun hfollows hroom ih =>
    intro call hcall
    rcases Upload.run_hasRoom hrun hw.kept hroom hfollows call hcall with hold | hnew
    · exact (ih call hold).mono hfollows.accepted_subset
    · exact hnew

/-- A deployment for one item, and then an upload of one item to its machine. -/
theorem lines_fit_one :
    ∃ w, Commands Sample.place (World.HasRoom Sample.place) w ∧
      (w.sent.flatMap Transaction.lineCalls).map LineCall.entries = [[(0, "A", "https://x/0")]] ∧
      ∀ call ∈ w.sent.flatMap Transaction.lineCalls, Accepted.HasRoom w.accepted call := by
  have hdeploy := Ledger.runs_transcript Sample.deploy (Sample.ledger "A")
  have hupload := Ledger.runs_transcript Sample.upload
    ((Sample.ledger "A").run Sample.deploy).2
  have hchecks :
      let es₁ := (Ledger.transcript Sample.deploy (Sample.ledger "A")).1
      let es₂ := (Ledger.transcript Sample.upload ((Sample.ledger "A").run Sample.deploy).2).1
      let w₁ := (World.start .missing).after Sample.place.path es₁
      let w₂ := w₁.after Sample.place.path es₂
      (World.start .missing).permitsAll Sample.place.path es₁ = true ∧
      w₁.permitsAll Sample.place.path es₂ = true ∧
      (∀ t ∈ w₁.accepted, ∀ i ∈ t.instructions, i.data.length < 2 ^ 32 ∧
        ∀ d ∈ i.machineData?, d.hiddenSettings = none ∧ d.itemsAvailable = 1) ∧
      (∀ e ∈ es₂, ∀ n ∈ e.manifestCount?, n ≤ 1) ∧
      (w₂.sent.flatMap Transaction.lineCalls).map LineCall.entries =
        [[(0, "A", "https://x/0")]] := by decide +kernel
  obtain ⟨hpermits₁, hpermits₂, hdata, hcount, hentries⟩ := hchecks
  have hdeployed := (Commands.start (P := World.HasRoom Sample.place)).deploy hdeploy
    (World.follows_after hpermits₁)
  have hcommands := hdeployed.upload hupload (World.follows_after hpermits₂) ?_
  · exact ⟨_, hcommands, hentries, hcommands.lines_fit⟩
  · intro _ machine data _ hinit
    obtain ⟨hhidden, hitems⟩ := hinit.of_forall hdata
    rw [hitems]
    exact ⟨hhidden, hcount⟩

end Commands

/-! ## Lines without room -/

/-- A deployment of a machine whose items are hidden. -/
def Sample.deployHidden : Script Address :=
  let hidden := ⟨"N", "https://x", String.ofList (List.replicate 32 '0')⟩
  Deploy.run payer 0 { config with hiddenSettings := some hidden } place choice

/-- **Without this condition lines need not fit**: a machine is deployed with hidden settings, and then
an upload without them writes a line to it. -/
theorem Commands.lines_need_not_fit :
    ∃ w, Commands Sample.place (fun _ _ _ => True) w ∧
      ∃ call ∈ w.sent.flatMap Transaction.lineCalls, ¬Accepted.HasRoom w.accepted call := by
  have hdeploy := Ledger.runs_transcript Sample.deployHidden (Sample.ledger "A")
  have hupload := Ledger.runs_transcript Sample.upload
    ((Sample.ledger "A").run Sample.deployHidden).2
  have hchecks :
      let es₁ := (Ledger.transcript Sample.deployHidden (Sample.ledger "A")).1
      let es₂ := (Ledger.transcript Sample.upload
        ((Sample.ledger "A").run Sample.deployHidden).2).1
      let w₁ := (World.start .missing).after Sample.place.path es₁
      let w₂ := w₁.after Sample.place.path es₂
      (World.start .missing).permitsAll Sample.place.path es₁ = true ∧
      w₁.permitsAll Sample.place.path es₂ = true ∧
      (∀ t ∈ w₂.accepted, ∀ i ∈ t.instructions, i.data.length < 2 ^ 32 ∧
        ∀ d ∈ i.machineData?, d.hiddenSettings.isSome = true) ∧
      w₂.sent.flatMap Transaction.lineCalls ≠ [] := by decide +kernel
  obtain ⟨hpermits₁, hpermits₂, hdata, hsent⟩ := hchecks
  have hdeployed := (Commands.start (P := fun _ _ _ => True)).deploy hdeploy
    (World.follows_after hpermits₁)
  have hcommands := hdeployed.upload hupload (World.follows_after hpermits₂) trivial
  obtain ⟨call, hcall⟩ := List.exists_mem_of_ne_nil _ hsent
  refine ⟨_, hcommands, call, hcall, ?_⟩
  rintro ⟨data, hinit, hnone, -⟩
  have hsome := hinit.of_forall hdata
  rw [hnone] at hsome
  cases hsome

end CandyDrop
