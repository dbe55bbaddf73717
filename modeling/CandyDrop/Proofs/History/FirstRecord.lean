import CandyDrop.Proofs.Cache.FirstSave
import CandyDrop.Proofs.Deploy.Recorded
import CandyDrop.Proofs.Upload.Stages

/-!
# The first record of a machine

A machine can be created although there is a record already: by a deployment, whatever that record
names, and by an upload, if it names none. The first record of the new machine keeps the items, and
an upload takes all of them for not yet written. A deployment does so if the record named a machine;
if it named none, the items keep their flags, whatever these are (`Maker.firstRecord`).
-/

namespace CandyDrop

open Script CollectionMint

variable {path text : String} {w w' : World} {es : List Event} {payer machine : Address}
  {place : CachePlace} {choice : CollectionChoice} {config : Config} {now : Int}
  {record : Content}

/-! ## Deployments -/

namespace Deploy

theorem get?_record (machine : Address) (c : Cache) (key : String) :
    (Deploy.record machine c).items.get? key =
      if c.program.candyMachine = "" then c.items.get? key
      else (c.items.get? key).map fun item => { item with onChain := false } := by
  unfold Deploy.record
  split
  · rfl
  · exact Table.get?_map _ c.items key

theorem neverWrites_prepare (payer : Address) (now : Int) (config : Config)
    (choice : CollectionChoice) : (prepare payer now config choice).NeverWrites := by
  refine Only.bind (only_ofExcept fun _ _ => trivial) fun plan => ?_
  refine (neverWrites_of_only (quiet_checkCollection _ _)).bind fun _ => ?_
  refine (neverWrites_of_only (Settings.quiet_resolve _ _ _)).bind fun settings => ?_
  refine (only_request id).bind fun _ => ?_
  exact (Machine.neverWrites_create _ _ _ _).bind fun _ => trivial

/-- What is saved first when a machine is recorded is the record with this machine. -/
theorem firstSaved?_recordAndSet {steps : String} {mint : Option Address}
    {o : Except Failure Address} (hw : w.Follows place.path es w')
    (h : (recordAndSet payer machine place steps mint).Runs es o)
    (hsaved : firstSaved? place.path es = some text) :
    ∃ c, Cache.ofContent place.path place.env place.name true w.record = .ok c ∧
      text = (Deploy.record machine c).ordered.render := by
  have hload : (Cache.load place.folder place.env place.name true).NeverWrites :=
    neverWrites_of_only (Cache.quiet_load _ _ _ _)
  rcases hw.stages h with ⟨_, -, h₁⟩ | ⟨c, es₁, es₂, v, rfl, h₁, hv, h₂, -⟩
  · rw [firstSaved?_of_neverWrites h₁ hload] at hsaved
    cases hsaved
  rw [firstSaved?_append_of_neverWrites h₁ hload] at hsaved
  have hcontent := Cache.load_runs h₁ hv
  have hwarn : (warnReplaced machine c).NeverWrites := neverWrites_of_only (only_warnReplaced _ _)
  rcases runs_bind_iff.1 h₂ with ⟨_, -, h₃⟩ | ⟨_, es₃, es₄, rfl, h₃, h₄⟩
  · rw [firstSaved?_of_neverWrites h₃ hwarn] at hsaved
    cases hsaved
  rw [firstSaved?_append_of_neverWrites h₃ hwarn] at hsaved
  have hpath : (Deploy.record machine c).path = place.path :=
    (path_record machine c).trans (Cache.path_of_ofContent hcontent)
  refine ⟨c, hcontent, ?_⟩
  rcases Cache.firstSaved?_save_bind h₄ with ⟨hfirst, -⟩ | ⟨hnone, -⟩
  · rw [hpath, hsaved] at hfirst
    exact Option.some.inj hfirst
  · rw [hpath, hsaved] at hnone
    cases hnone

/-- If a deployment has created a machine, what is saved first is the record with this machine. -/
theorem firstSaved_of_created {o : Except Failure Address}
    (hrun : (run payer now config place choice).Runs es o)
    (hw : (World.start record).Follows place.path es w)
    (hcreated : Accepted.Created w.accepted machine)
    (hsaved : firstSaved? place.path es = some text) :
    ∃ c, Cache.ofContent place.path place.env place.name true record = .ok c ∧
      text = (Deploy.record machine c).ordered.render := by
  obtain ⟨mint, t, es₁, es₂, rfl, h₁, h₂, hw₂⟩ := stages_of_created hrun hw hcreated
  rw [firstSaved?_append_of_neverWrites h₁ (neverWrites_prepare ..)] at hsaved
  exact firstSaved?_recordAndSet hw₂ h₂ hsaved

end Deploy

/-! ## Uploads -/

namespace Upload

variable {c : Cache} {options : Options} {settings : Settings} {p : Plan}

theorem firstSaved?_machine {o : Except Failure (Address × Cache)}
    (h : (Upload.machine payer settings p c).Runs es o) :
    firstSaved? c.path es = o.toOption.map (·.2.render) := by
  rcases runs_bind_iff.1 h with ⟨_, rfl, h₁⟩ | ⟨recorded, es₁, es₂, rfl, h₁, h₂⟩
  · obtain ⟨rfl, -⟩ := runs_ofExcept_iff.1 h₁
    rfl
  obtain ⟨rfl, -⟩ := runs_ofExcept_iff.1 h₁
  cases recorded with
  | some m =>
    obtain ⟨es₃, rfl, h₃⟩ := runs_say_bind_iff.1 h₂
    rcases Cache.firstSaved?_save_bind h₃ with ⟨hfirst, es₄, hend⟩ | ⟨hnone, e, rfl⟩
    · obtain ⟨-, rfl⟩ := runs_done_iff.1 hend
      exact hfirst
    · exact hnone
  | none =>
    have hcreate := Machine.neverWrites_create payer settings p.details p.available
    rcases runs_bind_iff.1 h₂ with ⟨_, rfl, h₃⟩ | ⟨m, es₃, es₄, rfl, h₃, h₄⟩
    · exact firstSaved?_of_neverWrites h₃ hcreate
    · rw [List.nil_append, firstSaved?_append_of_neverWrites h₃ hcreate]
      rcases Cache.firstSaved?_save_bind (c := created m c) h₄ with
        ⟨hfirst, es₅, hend⟩ | ⟨hnone, e, rfl⟩
      · obtain ⟨-, rfl⟩ := runs_done_iff.1 hend
        exact hfirst
      · exact hnone

theorem firstSaved?_opening {o : Except Failure (Survey × Address × Cache)}
    (hw : w.Follows options.path es w') (h : (opening payer now config options).Runs es o) :
    firstSaved? options.path es = o.toOption.map (·.2.2.render) := by
  have hsurvey : (survey payer now config options).NeverWrites :=
    neverWrites_of_only (quiet_survey ..)
  rcases hw.stages h with ⟨_, rfl, h₁⟩ | ⟨s, es₁, es₂, v, rfl, h₁, hv, h₂, -⟩
  · exact firstSaved?_of_neverWrites h₁ hsurvey
  rw [firstSaved?_append_of_neverWrites h₁ hsurvey]
  obtain ⟨_, _, _, hsurveyed⟩ := survey_runs h₁ hv
  have hpath : (merge s.plan.items s.cache).path = options.path := hsurveyed.path_eq
  obtain ⟨es₃, rfl, h₃⟩ := runs_say_bind_iff.1 h₂
  change firstSaved? options.path es₃ = _
  rcases runs_bind_iff.1 h₃ with ⟨_, rfl, h₄⟩ | ⟨x, es₄, es₅, rfl, h₄, hend⟩
  · have hnone := firstSaved?_machine h₄
    rwa [hpath] at hnone
  · obtain ⟨rfl, rfl⟩ := runs_done_iff.1 hend
    have hfirst := firstSaved?_machine h₄
    rw [hpath] at hfirst
    rw [List.append_nil, hfirst]
    rfl

/-- What an upload does once there is a machine. -/
def proceed (payer : Address) (options : Options) (s : Survey) (machine : Address)
    (cache : Cache) : Script Address :=
  batching s machine cache >>= finish payer options

theorem run_eq_opening_bind (payer : Address) (now : Int) (config : Config) (options : Options) :
    run payer now config options =
      opening payer now config options >>= fun x => proceed payer options x.1 x.2.1 x.2.2 := by
  rw [run_eq_prepare_bind_finish, prepare_eq_opening_bind, Script.bind_assoc]
  rfl

/-- Once there is a machine, an upload creates no other one. -/
theorem proceed_accepted {s : Survey} {o : Except Failure Address} (hw : w.Follows c.path es w')
    (hout : w.out = []) (hrecord : w.record = .bytes (Bytes.ofText c.render))
    (h : (proceed payer options s machine c).Runs es o) :
    ∃ ts, w'.accepted = w.accepted ++ ts ∧ ∀ t ∈ ts, t.createdMachines = [] := by
  rcases hw.stages h with ⟨_, -, h₁⟩ | ⟨q, es₁, es₂, v, rfl, h₁, hv, h₂, hw₂⟩
  · exact ⟨[], by simp [(batching_runs hw h₁).1], by simp⟩
  obtain ⟨rfl, ⟨bs, -, ho⟩ | ⟨_, -, ho⟩⟩ := batching_runs hv h₁
  · cases ho
    obtain ⟨c', t, v₁, hwritten, hending⟩ :=
      finish_runs (p := ⟨s, machine, c, bs⟩) hw₂ hout hrecord h₂
    have hbatches := Batch.createdMachines_transactions payer machine t.done
    have haccepted := hwritten.accepted
    rcases hending with ⟨_, -, -, rfl⟩ | ⟨-, -, -, hsettled, -⟩
    · exact ⟨_, haccepted, hbatches⟩
    · obtain ⟨sent, ts, -, hts, hnone⟩ := hsettled.sends
      refine ⟨_, by rw [hts, haccepted, List.append_assoc], fun u hu => ?_⟩
      rcases List.mem_append.1 hu with hu | hu
      · exact hbatches u hu
      · exact (hnone u (List.mem_append_right _ hu)).2
  · cases ho

/-- If an upload has created a machine, the record that it opened was one without a machine, and
what is saved first is this record with the new one. -/
theorem firstSaved_of_created {o : Except Failure Address}
    (hrun : (run payer now config options).Runs es o)
    (hw : (World.start record).Follows options.path es w)
    (hcreated : Accepted.Created w.accepted machine)
    (hsaved : firstSaved? options.path es = some text) :
    ∃ c items,
      Cache.ofContent options.path options.place.env options.place.name true record = .ok c ∧
      text = (created machine (merge items c)).ordered.render := by
  rw [run_eq_opening_bind] at hrun
  obtain ⟨t, ht, hmachine⟩ := hcreated
  rcases hw.stages hrun with ⟨_, rfl, h₁⟩ | ⟨x, es₁, es₂, v, rfl, h₁, hv, h₂, hw₂⟩
  · rw [firstSaved?_opening hw h₁] at hsaved
    cases hsaved
  rw [firstSaved?_append, firstSaved?_opening hv h₁] at hsaved
  rcases opening_runs hv h₁ with ⟨s, m, c, _, _, _, ho, hready⟩ | ⟨_, _, _, ho, -⟩
  · cases ho
    obtain rfl : c.render = text := Option.some.inj hsaved
    obtain ⟨ts, haccepted, hnone⟩ := proceed_accepted (hready.path_eq ▸ hw₂) hready.opened.out_eq
      hready.opened.record_eq h₂
    have hnot : t ∉ ts := fun hmem => by
      rw [hnone t hmem] at hmachine
      cases hmachine
    rw [haccepted] at ht
    refine ⟨s.cache, s.plan.items, hready.surveyed.cache, ?_⟩
    have hopened := hready.opened
    cases hopened with
    | recorded hm =>
      rcases List.mem_append.1 ht with ht | ht
      · cases ht
      · exact absurd ht hnot
    | @created t₁ hm hcreates =>
      rcases List.mem_append.1 ht with ht | ht
      · obtain rfl : t = t₁ := List.mem_singleton.1 ht
        rw [hcreates.createdMachines, List.mem_singleton] at hmachine
        rw [hmachine]
      · exact absurd ht hnot
  · cases ho

end Upload

/-! ## Both commands -/

/-- Nothing is taken for written. -/
def Cache.Unwritten (c : Cache) : Prop :=
  ∀ key item, c.items.get? key = some item → item.onChain = false

/-- The commands that create machines. -/
inductive Maker where
  | deployment
  | upload (directory : String) (rateLimit : Nat)

namespace Maker

/-- What a command does that keeps its record at a place. -/
def script (payer : Address) (now : Int) (config : Config) (place : CachePlace)
    (choice : CollectionChoice) : Maker → Script Address
  | deployment => Deploy.run payer now config place choice
  | upload directory rateLimit => Upload.run payer now config ⟨directory, place, choice, rateLimit⟩

/-- The first record `c'` of a new machine, next to the record `c` that was loaded. -/
structure FirstRecord (maker : Maker) (machine : Address) (c c' : Cache) : Prop where
  program : c'.program = CacheProgram.ofMachine machine
  keys : ∀ key, (c.items.get? key).isSome → (c'.items.get? key).isSome
  lines : maker = deployment → ∀ key,
    (c'.items.get? key).map (fun item => (item.name, item.link)) =
      (c.items.get? key).map fun item => (item.name, item.link)
  unwritten : c'.Unwritten ↔
    (maker = deployment → c.program.candyMachine = "" → c.Unwritten)

theorem firstRecord_deployment (machine : Address) (c : Cache) (path : String) :
    FirstRecord deployment machine c { (Deploy.record machine c).ordered with path } := by
  have hget : ∀ key, ({ (Deploy.record machine c).ordered with path } : Cache).items.get? key =
      if c.program.candyMachine = "" then c.items.get? key
      else (c.items.get? key).map fun item => { item with onChain := false } := fun key =>
    ((Deploy.record machine c).get?_ordered key).trans (Deploy.get?_record machine c key)
  refine ⟨rfl, fun key hkey => ?_, fun _ key => ?_, ?_⟩
  · rw [hget]
    split
    · exact hkey
    · rwa [Option.isSome_map]
  · rw [hget]
    split
    · rfl
    · rw [Option.map_map]
      rfl
  · by_cases hempty : c.program.candyMachine = ""
    · simp only [Cache.Unwritten, hget, hempty, if_true, forall_const]
    · refine iff_of_true (fun key item hitem => ?_) fun _ h => absurd h hempty
      rw [hget, if_neg hempty] at hitem
      obtain ⟨old, -, rfl⟩ := Option.map_eq_some_iff.1 hitem
      rfl

theorem firstRecord_upload {directory : String} {rateLimit : Nat} (machine : Address) (c : Cache)
    (items : List (String × CacheItem)) (path : String) :
    FirstRecord (upload directory rateLimit) machine c
      { (Upload.created machine (Upload.merge items c)).ordered with path } := by
  have hget : ∀ key, ({ (Upload.created machine (Upload.merge items c)).ordered with
      path } : Cache).items.get? key = ((Upload.merge items c).items.get? key).map
        fun item => { item with onChain := false } := fun key =>
    Upload.get?_created machine (Upload.merge items c) key
  refine ⟨rfl, fun key hkey => ?_, nofun, ?_⟩
  · rw [hget, Option.isSome_map]
    exact Upload.isSome_get?_merge hkey
  · refine iff_of_true (fun key item hitem => ?_) nofun
    rw [hget] at hitem
    obtain ⟨old, -, rfl⟩ := Option.map_eq_some_iff.1 hitem
    rfl

/-- **The first record of a new machine.** Let a command start from a record that can be loaded,
whatever it says, and create a machine. The first record that it saves names this machine and has
every item that was loaded, and after a deployment these only, with their names and links. It takes
nothing for written, unless the command is a deployment, the record that was loaded names no machine
and still takes something for written: those items then count as written to the new machine, which
holds none of them.

A command that saves no record at all leaves the old one. -/
theorem firstRecord {o : Except Failure Address} (maker : Maker)
    (hrun : (maker.script payer now config place choice).Runs es o)
    (hw : (World.start record).Follows place.path es w)
    (hcreated : Accepted.Created w.accepted machine)
    (hsaved : firstSaved? place.path es = some text) :
    ∃ c c', Cache.ofContent place.path place.env place.name true record = .ok c ∧
      Cache.ofBytes? place.path (Bytes.ofText text) = some c' ∧
      FirstRecord maker machine c c' := by
  cases maker with
  | deployment =>
    obtain ⟨c, hload, rfl⟩ := Deploy.firstSaved_of_created hrun hw hcreated hsaved
    exact ⟨c, _, hload, Cache.ofBytes?_render _ _, firstRecord_deployment machine c _⟩
  | upload directory rateLimit =>
    obtain ⟨c, items, hload, rfl⟩ := Upload.firstSaved_of_created hrun hw hcreated hsaved
    exact ⟨c, _, hload, Cache.ofBytes?_render _ _, firstRecord_upload machine c items _⟩

end Maker

/-- A record without a machine that takes an item for written. -/
def Sample.edited : Cache :=
  { Cache.fresh Sample.place.path "devnet" "temp" with
    items := Table.ofList [("0", ⟨"A", "https://x/0", true⟩)] }

/-- A deployment that starts from such a record goes on taking the item for written. -/
theorem Maker.firstRecord_edited :
    ∃ es o w text c', (Maker.deployment.script Sample.payer 0 Sample.config Sample.place
        Sample.choice).Runs es o ∧
      (World.start (.bytes (Bytes.ofText Sample.edited.render))).Follows Sample.place.path es w ∧
      Accepted.Created w.accepted (Ledger.newKey 1) ∧
      firstSaved? Sample.place.path es = some text ∧
      Cache.ofBytes? Sample.place.path (Bytes.ofText text) = some c' ∧
      c'.program = CacheProgram.ofMachine (Ledger.newKey 1) ∧ ¬c'.Unwritten := by
  have hrun := Ledger.runs_transcript Sample.deploy
    (Sample.ledgerWith (Bytes.ofText Sample.edited.render))
  have hchecks :
      let es := (Ledger.transcript Sample.deploy
        (Sample.ledgerWith (Bytes.ofText Sample.edited.render))).1
      let start := World.start (.bytes (Bytes.ofText Sample.edited.render))
      start.permitsAll Sample.place.path es = true ∧
      Accepted.Created (start.after Sample.place.path es).accepted (Ledger.newKey 1) ∧
      (firstSaved? Sample.place.path es).isSome = true := by decide +kernel
  obtain ⟨hpermits, hcreated, hsome⟩ := hchecks
  obtain ⟨text, hsaved⟩ := Option.isSome_iff_exists.1 hsome
  have hworld := World.follows_after hpermits
  obtain ⟨c, c', hload, hread, hfirst⟩ :=
    Maker.firstRecord .deployment hrun hworld hcreated hsaved
  refine ⟨_, _, _, text, c', hrun, hworld, hcreated, hsaved, hread, hfirst.program, fun h => ?_⟩
  rw [Cache.ofContent, Cache.ofBytes?_render] at hload
  cases hload
  cases hfirst.unwritten.1 h rfl rfl "0" ⟨"A", "https://x/0", true⟩ rfl

end CandyDrop
