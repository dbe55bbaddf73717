import CandyDrop.Proofs.Upload.Stages

/-!
# What commands send

Deployments and uploads send transactions of three kinds (`Transaction.IsOwn`): they create a
machine, set a collection or write the lines of a batch. Once there is a machine, only the other two
kinds are sent (`Transaction.IsFurther`). Which transactions a script can send is read
off the script (`Script.OnlySends`), and then holds of everything that is accepted along its
transcripts (`World.Follows.accepted_of_sends`). In particular the data of a machine that was created
are among those that some command made (`Transaction.IsOwn.initializes`), and in one upload they are
made of the settings and the plan of this upload (`Upload.only_machine`).
-/

namespace CandyDrop

/-! ## Creations -/

/-- One of the instructions sets up this machine with these data. -/
def Transaction.Initializes (t : Transaction) (machine : Address) (data : MachineData) : Prop :=
  ∃ wallet payer tokenMint,
    Instruction.initializeMachine machine wallet payer tokenMint data ∈ t.instructions

namespace Machine

variable {payer m : Address} {settings : Settings} {details : CollectionDetails} {items : UInt64}
  {t : Transaction}

/-- The transaction creates a machine from these settings and details for so many items. -/
def IsCreation (payer : Address) (settings : Settings) (details : CollectionDetails)
    (items : UInt64) (t : Transaction) : Prop :=
  ∃ machine space lamports,
    let data := MachineData.ofSettings settings details items machine.shortName
    data.space? = some space ∧ t = creation payer machine settings data space lamports

theorem IsCreation.initializes (h : IsCreation payer settings details items t)
    (hm : m ∈ t.createdMachines) :
    t.Initializes m (MachineData.ofSettings settings details items m.shortName) := by
  obtain ⟨machine, space, lamports, -, rfl⟩ := h
  rw [createdMachines_creation, List.mem_singleton] at hm
  subst hm
  exact ⟨settings.wallet, payer, settings.tokenMint, List.mem_cons_of_mem _ List.mem_cons_self⟩

end Machine

/-- The transactions of deployments and uploads. -/
inductive Transaction.IsOwn (payer : Address) : Transaction → Prop
  | creation {settings : Settings} {details : CollectionDetails} {items : UInt64}
      {t : Transaction} (h : Machine.IsCreation payer settings details items t) : IsOwn payer t
  | setting (machine mint : Address) : IsOwn payer (CollectionMint.setting payer machine mint)
  | lines {machine : Address} {batch : Batch} {t : Transaction}
      (h : Batch.transaction? payer machine batch = some t) : IsOwn payer t

/-- The transactions that are sent once there is a machine. -/
inductive Transaction.IsFurther (payer : Address) : Transaction → Prop
  | setting (machine mint : Address) : IsFurther payer (CollectionMint.setting payer machine mint)
  | lines {machine : Address} {batch : Batch} {t : Transaction}
      (h : Batch.transaction? payer machine batch = some t) : IsFurther payer t

section

variable {payer machine : Address} {t : Transaction}

theorem Transaction.IsFurther.isOwn (h : t.IsFurther payer) : t.IsOwn payer := by
  cases h with
  | setting machine mint => exact .setting machine mint
  | lines h => exact .lines h

/-- No machine is created once there is one. -/
theorem Transaction.IsFurther.createdMachines (h : t.IsFurther payer) : t.createdMachines = [] := by
  cases h with
  | setting machine mint => exact CollectionMint.createdMachines_setting ..
  | lines h => exact Batch.createdMachines_transaction h

/-- A machine is created with data that were made for it. -/
theorem Transaction.IsOwn.initializes (h : t.IsOwn payer) (hm : machine ∈ t.createdMachines) :
    ∃ data, t.Initializes machine data := by
  cases h with
  | creation h => exact ⟨_, h.initializes hm⟩
  | setting machine mint =>
    rw [CollectionMint.createdMachines_setting] at hm
    cases hm
  | lines h =>
    rw [Batch.createdMachines_transaction h] at hm
    cases hm

end

/-! ## Scripts and what they send -/

namespace Request

variable {T : Transaction → Prop} {r : Request}

/-- Every transaction that a request sends is of this kind. -/
def Sends (T : Transaction → Prop) : Request → Prop
  | .submit t => T t
  | .launch t => ∀ u ∈ t, T u
  | _ => True

theorem IsQuiet.sends (h : r.IsQuiet) : r.Sends T := by
  cases r <;> trivial

end Request

namespace Script

variable {α : Type} {T T' : Transaction → Prop} {s : Script α}

/-- Every transaction that a script can send is of this kind. -/
abbrev OnlySends (T : Transaction → Prop) (s : Script α) : Prop :=
  s.Only (Request.Sends T) fun _ => True

theorem Quiet.onlySends (h : s.Quiet) : s.OnlySends T :=
  h.mono (fun _ => Request.IsQuiet.sends) fun _ _ => trivial

theorem OnlySends.mono (h : s.OnlySends T) (hT : ∀ t, T t → T' t) : s.OnlySends T' := by
  refine Only.mono h (fun r hr => ?_) fun _ => id
  cases r with
  | submit t => exact hT t hr
  | launch t => exact fun u hu => hT u (hr u hu)
  | _ => trivial

theorem onlySends_ofExcept {ε : Type} {failure : ε → Failure} {x : Except ε α} :
    (ofExcept failure x).OnlySends T := only_ofExcept fun _ _ => trivial

theorem onlySends_submit {t : Transaction} (h : T t) : (submit t).OnlySends T :=
  ⟨h, fun _ => onlySends_ofExcept⟩

end Script

open Script

namespace World

variable {path : String} {w w' : World} {e : Event} {es : List Event} {T : Transaction → Prop}

theorem step_of_sends (path : String) (hout : ∀ t ∈ w.out, ∀ u ∈ t, T u) (he : e.request.Sends T) :
    (∃ ts, (w.step path e).accepted = w.accepted ++ ts ∧ ∀ t ∈ ts, T t) ∧
      ∀ t ∈ (w.step path e).out, ∀ u ∈ t, T u := by
  have hsame : ∃ ts, w.accepted = w.accepted ++ ts ∧ ∀ t ∈ ts, T t := ⟨[], by simp, by simp⟩
  obtain ⟨r, answer⟩ := e
  cases r with
  | submit t =>
    cases answer with
    | ok signature =>
      have ht : T t := he
      exact ⟨⟨[t], rfl, by simpa using ht⟩, hout⟩
    | error fault => exact ⟨hsame, hout⟩
  | launch t =>
    refine ⟨hsame, fun u hu => ?_⟩
    rcases List.mem_append.1 hu with hu | hu
    · exact hout u hu
    · rw [List.mem_singleton.1 hu]
      exact he
  | await n =>
    obtain ⟨i, answer⟩ := answer
    have hrest : ∀ t ∈ w.out.eraseIdx i, ∀ u ∈ t, T u := fun t ht =>
      hout t (List.mem_of_mem_eraseIdx ht)
    cases answer with
    | ok signature =>
      refine ⟨⟨(w.out[i.val]?).join.toList, rfl, fun u hu => ?_⟩, hrest⟩
      rw [Option.mem_toList, Option.join_eq_some_iff] at hu
      exact hout (some u) (List.mem_of_getElem? hu) u rfl
    | error fault => exact ⟨hsame, hrest⟩
  | write p text =>
    cases answer with
    | none =>
      rw [step]
      split <;> exact ⟨hsame, hout⟩
    | some reason => exact ⟨hsame, hout⟩
  | _ => exact ⟨hsame, hout⟩

/-- **What is accepted was sent**: if every transaction that is out or sent is of some kind, so is
every one that is accepted. -/
theorem Follows.accepted_of_sends (hw : w.Follows path es w')
    (hout : ∀ t ∈ w.out, ∀ u ∈ t, T u) (hes : ∀ e ∈ es, e.request.Sends T) :
    ∃ ts, w'.accepted = w.accepted ++ ts ∧ ∀ t ∈ ts, T t := by
  induction es generalizing w with
  | nil =>
    obtain rfl := follows_nil.1 hw
    exact ⟨[], by simp, by simp⟩
  | cons e es ih =>
    rw [List.forall_mem_cons] at hes
    obtain ⟨⟨ts, hts, hT⟩, hout⟩ := step_of_sends path hout hes.1
    obtain ⟨us, hus, hU⟩ := ih hw.2 hout hes.2
    refine ⟨ts ++ us, by rw [hus, hts, List.append_assoc], fun t ht => ?_⟩
    rcases List.mem_append.1 ht with ht | ht
    · exact hT t ht
    · exact hU t ht

/-- What was accepted stays accepted. -/
theorem Follows.accepted_subset (hw : w.Follows path es w') : w.accepted ⊆ w'.accepted := by
  have hall : ∀ e ∈ es, e.request.Sends fun _ => True := fun e _ => by
    cases e.request <;> first | trivial | exact fun _ _ => trivial
  obtain ⟨ts, haccepted, -⟩ := hw.accepted_of_sends (fun _ _ _ _ => trivial) hall
  rw [haccepted]
  exact List.subset_append_left ..

end World

/-! ## The commands -/

section

variable {T : Transaction → Prop}

namespace Machine

variable {settings : Settings} {details : CollectionDetails} {items : UInt64}

theorem only_create (payer : Address) (settings : Settings) (details : CollectionDetails)
    (items : UInt64) :
    (create payer settings details items).OnlySends (IsCreation payer settings details items) := by
  refine (only_request trivial).bind fun machine => Only.bind ?_ fun _ => only_done _
  unfold initializeAt
  split
  · trivial
  · next space hspace =>
    refine (quiet_rent space).onlySends.bind fun lamports => ?_
    refine (quiet_balance payer).onlySends.bind fun balance => ?_
    split
    · trivial
    · exact onlySends_submit ⟨machine, space, lamports, hspace, rfl⟩

end Machine

namespace CollectionMint

theorem only_setAndRecord (payer machine mint : Address) (c : Cache) :
    (setAndRecord payer machine mint c).OnlySends (Transaction.IsFurther payer) :=
  (onlySends_submit (.setting machine mint)).bind fun _ => Cache.only_save trivial

end CollectionMint

namespace Deploy

theorem only_recordAndSet (payer machine : Address) (place : CachePlace) (steps : String)
    (mint : Option Address) :
    (recordAndSet payer machine place steps mint).OnlySends (Transaction.IsFurther payer) := by
  refine (Cache.quiet_load _ _ _ _).onlySends.bind fun c => ?_
  refine (quiet_warnReplaced _ _).onlySends.bind fun _ => ?_
  refine (Cache.only_save trivial).bind fun c => ?_
  cases mint with
  | some mint =>
    refine (only_request trivial).bind fun _ => ?_
    exact (CollectionMint.only_setAndRecord _ _ _ _).bind fun _ => only_done _
  | none => exact only_done _

theorem only_run (payer : Address) (now : Int) (config : Config) (place : CachePlace)
    (choice : CollectionChoice) :
    (run payer now config place choice).OnlySends (Transaction.IsOwn payer) := by
  rw [run_eq_prepare_bind]
  refine Only.bind ?_ fun p =>
    (only_recordAndSet ..).mono fun _ => Transaction.IsFurther.isOwn
  refine onlySends_ofExcept.bind fun plan => ?_
  refine (quiet_checkCollection _ _).onlySends.bind fun _ => ?_
  refine (Settings.quiet_resolve _ _ _).onlySends.bind fun settings => ?_
  refine (only_request trivial).bind fun _ => ?_
  exact ((Machine.only_create _ _ _ _).mono fun _ => .creation).bind fun _ => only_done _

end Deploy

namespace Schedule

variable {payer machine : Address}

theorem only_record (batch : Batch) (answer : Except ClusterFault Signature) (p : Progress) :
    (record batch answer p).OnlySends T := by
  unfold record
  split
  · trivial
  · exact (Cache.only_trySave trivial).bind fun _ => only_done _

theorem only_start (payer machine : Address) (batch : Batch) :
    (start payer machine batch).OnlySends (Transaction.IsFurther payer) :=
  only_request fun _ h => .lines h

theorem only_startAll (payer machine : Address) (batches : List Batch) :
    (startAll payer machine batches).OnlySends (Transaction.IsFurther payer) := by
  induction batches with
  | nil => trivial
  | cons b bs ih => exact (only_start payer machine b).bind fun _ => ih

theorem only_drain (payer machine : Address) (out waiting : List Batch) (p : Progress) :
    (drain payer machine out waiting p).OnlySends (Transaction.IsFurther payer) := by
  induction out, waiting, p using drain.induct with
  | case1 waiting p =>
    rw [drain]
    trivial
  | case2 waiting p b bs ih =>
    rw [drain]
    refine ⟨trivial, fun x => ?_⟩
    obtain ⟨i, answer⟩ := x
    refine (only_record _ answer p).bind fun p => ⟨trivial, fun stop => ?_⟩
    cases stop with
    | true => exact ih i p true
    | false =>
      cases waiting with
      | nil => exact ih i p false
      | cons next later => exact (only_start payer machine next).bind fun _ => ih i p false

theorem only_run (payer machine : Address) (limit : Nat) (c : Cache) (batches : List Batch) :
    (run payer machine limit c batches).OnlySends (Transaction.IsFurther payer) := by
  refine Only.bind ?_ fun ending => ?_
  · refine (only_request trivial).bind fun _ => ?_
    refine (only_startAll _ _ _).bind fun _ => ?_
    refine (only_drain _ _ _ _ _).bind fun (p, left) => ?_
    exact (Cache.only_trySave trivial).bind fun _ => only_done _
  · split <;> trivial

end Schedule

namespace Upload

/-- The only transaction that is sent for the machine of an upload creates it from the settings and
the plan. -/
theorem only_machine (payer : Address) (settings : Settings) (plan : Plan) (c : Cache) :
    (machine payer settings plan c).OnlySends
      (Machine.IsCreation payer settings plan.details plan.available) := by
  refine onlySends_ofExcept.bind fun recorded => ?_
  cases recorded with
  | some machine =>
    exact (only_request trivial).bind fun _ => (Cache.only_save trivial).bind fun _ => only_done _
  | none =>
    refine (Machine.only_create _ _ _ _).bind fun machine => ?_
    exact (Cache.only_save trivial).bind fun _ => only_done _

section

variable {now : Int} {config : Config} {options : Options} {payer : Address} {p : Prepared}
  {es : List Event} {w w' : World}

/-- All that an upload does to the world before it writes lines is done for its machine. -/
theorem prepare_machine (hw : w.Follows options.path es w')
    (h : (prepare payer now config options).Runs es (.ok p)) :
    let merged := merge p.survey.plan.items p.survey.cache
    ∃ es', (machine payer p.survey.settings p.survey.plan merged).Runs es'
        (.ok (p.machine, p.cache)) ∧ w.Follows merged.path es' w' := by
  rcases hw.stages h with ⟨_, ho, -⟩ | ⟨s, es₁, es₂, v, rfl, hsurvey, hv, h₂, hw₂⟩
  · cases ho
  obtain rfl := hv.eq_of_only hsurvey (quiet_survey ..)
  obtain ⟨_, _, _, hsurveyed⟩ := survey_runs hsurvey hv
  have hpath : s.cache.path = options.path := hsurveyed.path_eq
  obtain ⟨es₃, rfl, h₃⟩ := runs_say_bind_iff.1 h₂
  have hw₃ := hw₂.tail_of_quiet trivial
  rcases hw₃.stages h₃ with ⟨_, ho, -⟩ | ⟨⟨machine, c⟩, es₄, es₅, v₁, rfl, hmachine, hv₁, h₄, hw₄⟩
  · cases ho
  obtain ⟨es₆, rfl, h₅⟩ := runs_say_bind_iff.1 h₄
  obtain ⟨bs, es₇, es₈, rfl, hbatches, hend⟩ := runs_bind_ok_iff.1 h₅
  obtain ⟨rfl, -⟩ := runs_ofExcept_iff.1 hbatches
  obtain ⟨rfl, ho⟩ := runs_done_iff.1 hend
  cases ho
  obtain rfl := World.follows_nil.1 (hw₄.tail_of_quiet trivial)
  exact ⟨es₄, hmachine, hpath ▸ hv₁⟩

/-- If no machine is recorded, an upload that is ready to write has created its machine from its
settings and its plan. -/
theorem prepare_creates (hw : w.Follows options.path es w') (hout : w.out = [])
    (h : (prepare payer now config options).Runs es (.ok p))
    (hnone : p.survey.cache.machine = .ok none) :
    ∃ t ∈ w'.accepted, Machine.IsCreation payer p.survey.settings p.survey.plan.details
      p.survey.plan.available t ∧ p.machine ∈ t.createdMachines := by
  obtain ⟨es', hmachine, hw'⟩ := prepare_machine hw h
  obtain ⟨ts, haccepted, hts⟩ :=
    hw'.accepted_of_sends (by simp [hout]) (hmachine.forall_request (only_machine ..))
  rcases machine_runs hw' hmachine with ⟨_, _, ho, hopened⟩ | ⟨_, _, _, ho, -⟩
  · cases ho
    obtain ⟨us, -, haccepted', hopens⟩ := hopened.sends
    obtain rfl : us = ts := List.append_cancel_left (haccepted'.symm.trans haccepted)
    cases hopens.of_merge with
    | recorded hm =>
      rw [hnone] at hm
      cases hm
    | @created t hm ht =>
      refine ⟨t, ?_, hts t List.mem_cons_self, ?_⟩
      · rw [haccepted]
        exact List.mem_append_right _ List.mem_cons_self
      · rw [ht.createdMachines]
        exact List.mem_cons_self
  · cases ho

end

theorem only_finish (payer : Address) (options : Options) (p : Prepared) :
    (finish payer options p).OnlySends (Transaction.IsFurther payer) := by
  refine Only.bind ?_ fun c => Only.bind ?_ fun _ => only_done _
  · unfold writeLines
    split
    · exact (only_request trivial).bind fun _ => only_done _
    · refine (Schedule.only_run _ _ _ _ _).bind fun (c, outcome) => ?_
      dsimp only
      split <;> trivial
  · unfold setCollection
    split
    · split
      · trivial
      · refine (only_request trivial).bind fun _ => ?_
        exact (CollectionMint.only_setAndRecord _ _ _ _).bind fun _ => only_done _
    · trivial

theorem only_run (payer : Address) (now : Int) (config : Config) (options : Options) :
    (run payer now config options).OnlySends (Transaction.IsOwn payer) := by
  rw [run_eq_prepare_bind_finish]
  refine Only.bind ?_ fun p =>
    (only_finish payer options p).mono fun _ => Transaction.IsFurther.isOwn
  refine (quiet_survey _ _ _ _).onlySends.bind fun s => ?_
  refine (only_request trivial).bind fun _ => ?_
  refine ((only_machine _ _ _ _).mono fun _ => .creation).bind fun (machine, c) => ?_
  exact (only_request trivial).bind fun _ => onlySends_ofExcept.bind fun _ => only_done _

end Upload

end

end CandyDrop
