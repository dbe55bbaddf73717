import CandyDrop.Proofs.Deploy.Create

/-!
# A deployment in stages

A deployment creates a machine first and loads the record afterwards, so that a machine can be
there that no record names. `Deploy.Deployed` says what a deployment can come to in the world, and
`Deploy.run_runs` that it comes to nothing else.
-/

namespace CandyDrop

/-- The file of the record that is kept at a place. -/
def CachePlace.path (place : CachePlace) : String :=
  Cache.filePath place.folder place.env place.name

namespace Cache

variable {path env name : String} {content : Content} {c : Cache} {place : CachePlace}
  {w w' : World} {es : List Event}

theorem load_runs_iff {o : Except Failure Cache} :
    (load place.folder place.env place.name true).Runs es o ↔
      ∃ content, es = [⟨.read place.path, content⟩] ∧
        o = (ofContent place.path place.env place.name true content).mapError .cache := by
  rw [load, Script.request, Script.ask_bind, Script.runs_ask_iff]
  constructor
  · rintro ⟨content, es', rfl, h⟩
    obtain ⟨rfl, rfl⟩ := Script.runs_ofExcept_iff.1 h
    exact ⟨content, rfl, rfl⟩
  · rintro ⟨content, rfl, rfl⟩
    exact ⟨content, [], rfl, Script.runs_ofExcept_iff.2 ⟨rfl, rfl⟩⟩

/-- A record that is loaded is the one in its file. -/
theorem load_runs (h : (load place.folder place.env place.name true).Runs es (.ok c))
    (hw : w.Follows place.path es w') :
    ofContent place.path place.env place.name true w.record = .ok c := by
  obtain ⟨content, rfl, ho⟩ := load_runs_iff.1 h
  have hread : w.record.reads content = true := by
    simpa [World.permits] using hw.1
  have hc := mapError_eq_ok_iff.1 ho.symm
  cases content with
  | closed reason => cases hc
  | folder => cases hc
  | missing =>
    rw [← beq_iff_eq.1 hread]
    exact hc
  | bytes bs =>
    rw [← beq_iff_eq.1 hread]
    exact hc

theorem path_of_ofContent (h : ofContent path env name true content = .ok c) : c.path = path := by
  unfold ofContent at h
  split at h
  · cases h
    rfl
  · cases h
  · cases h
  · split at h
    · next c' hc =>
      cases h
      obtain ⟨j, -, hj⟩ := Option.bind_eq_some_iff.1 hc
      simp only [ofJson?, Option.bind_eq_bind, Option.bind_eq_some_iff] at hj
      obtain ⟨_, -, _, -, _, -, _, -, _, -, hj⟩ := hj
      cases hj
      rfl
    · cases h

end Cache

namespace Deploy

open Script CollectionMint

variable {path : String} {w w' : World} {es : List Event} {payer machine : Address} {c : Cache}
  {place : CachePlace} {choice : CollectionChoice} {config : Config} {now : Int}

/-- What a deployment does to the world. -/
inductive Deployed (payer : Address) (place : CachePlace) (w : World) (es : List Event) :
    World → Prop
  /-- Nothing was created. -/
  | stopped {sent : List Transaction} (h : ∀ t ∈ sent, ∃ m, t.Creates m) :
      Deployed payer place w es (w.sends sent [])
  /-- A machine was created, and the record could not be loaded or saved. -/
  | unrecorded {machine : Address} {t : Transaction} (h : t.Creates machine) :
      Deployed payer place w es (w.sends [t] [t])
  /-- A machine was created and recorded, and then its collection may be set. -/
  | recorded {machine : Address} {t : Transaction} {c : Cache} {v : World} (h : t.Creates machine)
      (hload : Cache.ofContent place.path place.env place.name true w.record = .ok c)
      (hsettled : Settled payer machine (record machine c).ordered
        ((w.sends [t] [t]).saves (record machine c).ordered) es v) : Deployed payer place w es v

theorem Deployed.mono {fs : List Event} (h : Deployed payer place w es w')
    (hsub : ∀ e ∈ es, e ∈ fs) : Deployed payer place w fs w' := by
  cases h with
  | stopped h => exact .stopped h
  | unrecorded h => exact .unrecorded h
  | recorded h hload hsettled => exact .recorded h hload (hsettled.mono hsub)

theorem only_warnReplaced (machine : Address) (c : Cache) :
    (warnReplaced machine c).Only Request.IsQuiet fun _ => False := by
  unfold warnReplaced
  split
  · trivial
  · exact only_request trivial

theorem quiet_warnReplaced (machine : Address) (c : Cache) : (warnReplaced machine c).Quiet :=
  (only_warnReplaced machine c).mono (fun _ => id) fun _ => False.elim

/-- The first half of a deployment: everything is checked, and the machine is created. The collection
that will be set comes with it. -/
def prepare (payer : Address) (now : Int) (config : Config) (choice : CollectionChoice) :
    Script (Option Address × Address) := do
  let plan ← Script.ofExcept id (plan config choice)
  checkCollection payer plan.collection
  let settings ← Settings.resolve config payer now
  let mint := chosen choice plan.collection
  Script.say ("[1/" ++ (if mint.isSome then "2" else "1") ++ "] 🍬 Creating candy machine")
  let machine ← Machine.create payer settings plan.details plan.items
  return (mint, machine)

/-- The second half of a deployment: the machine is recorded and its collection set. -/
def recordAndSet (payer machine : Address) (place : CachePlace) (steps : String)
    (mint : Option Address) : Script Address := do
  let cache ← Cache.load place.folder place.env place.name true
  warnReplaced machine cache
  let cache ← (record machine cache).save
  match mint with
  | some mint =>
    Script.say ("\n[2/" ++ steps ++ "] 📦 Setting collection")
    let _ ← CollectionMint.setAndRecord payer machine mint cache
    return machine
  | none => return machine

theorem run_eq_prepare_bind (payer : Address) (now : Int) (config : Config) (place : CachePlace)
    (choice : CollectionChoice) :
    run payer now config place choice = prepare payer now config choice >>= fun p =>
      recordAndSet payer p.2 place (if p.1.isSome then "2" else "1") p.1 := by
  simp only [run, prepare, Script.bind_assoc, Script.pure_eq_done, Script.done_bind]
  rfl

theorem path_record (machine : Address) (c : Cache) : (record machine c).path = c.path := by
  unfold record
  split <;> rfl

/-- **Recording a machine** goes by what is read of the file. If this is no record, nothing is done;
else the machine is recorded, unless the file cannot be written, and its collection may be set. -/
theorem recordAndSet_cases {steps : String} {mint : Option Address} {o : Except Failure Address}
    (hw : w.Follows place.path es w')
    (h : (recordAndSet payer machine place steps mint).Runs es o) :
    ∃ content, ⟨.read place.path, content⟩ ∈ es ∧
      ((∃ fault, Cache.ofContent place.path place.env place.name true content = .error fault ∧
          o = .error (.cache fault) ∧ w' = w) ∨
        ∃ c, Cache.ofContent place.path place.env place.name true content = .ok c ∧
          Cache.ofContent place.path place.env place.name true w.record = .ok c ∧
          (w' = w ∧ (¬∀ e ∈ es, e.saves) ∨ Settled payer machine (record machine c).ordered
            (w.saves (record machine c).ordered) es w')) := by
  rcases hw.stages h with ⟨e, rfl, hload⟩ | ⟨c, es₁, es₂, v, rfl, hload, hv, h₂, hw₂⟩
  · obtain ⟨content, rfl, ho⟩ := Cache.load_runs_iff.1 hload
    obtain ⟨fault, hfault, rfl⟩ := mapError_eq_error_iff.1 ho.symm
    have hsame := hw.eq_of_only hload (Cache.quiet_load _ _ _ _)
    exact ⟨content, List.mem_cons_self, .inl ⟨fault, hfault, rfl, hsame⟩⟩
  have hcontent := Cache.load_runs hload hv
  have hpath : (record machine c).path = place.path :=
    (path_record machine c).trans (Cache.path_of_ofContent hcontent)
  obtain rfl := hv.eq_of_only hload (Cache.quiet_load _ _ _ _)
  obtain ⟨content, rfl, ho⟩ := Cache.load_runs_iff.1 hload
  refine ⟨content, List.mem_cons_self, .inr ⟨c, mapError_eq_ok_iff.1 ho.symm, hcontent, ?_⟩⟩
  rcases hw₂.stages_of_only h₂ (only_warnReplaced machine c) with
    ⟨_, -, hfalse, -⟩ | ⟨_, es₃, es₄, rfl, -, h₃, hw₃⟩
  · exact hfalse.elim
  rcases hw₃.stages h₃ with ⟨_, -, hsave⟩ | ⟨c', es₅, es₆, v₁, rfl, hsave, hv₁, h₄, hw₄⟩
  · rcases World.Follows.save (c := record machine c) (hpath ▸ hw₃) hsave with
      ⟨ho, -⟩ | ⟨_, -, hsame, hsaves⟩
    · cases ho
    · exact .inl ⟨hsame, fun hall => hsaves fun e he => hall e (by simp [he])⟩
  rcases World.Follows.save (c := record machine c) (hpath ▸ hv₁) hsave with
    ⟨ho, rfl⟩ | ⟨_, ho, -⟩
  · cases ho
    refine .inr ?_
    cases mint with
    | none =>
      obtain ⟨rfl, rfl⟩ := runs_done_iff.1 h₄
      obtain rfl := World.follows_nil.1 hw₄
      exact .same
    | some mint =>
      obtain ⟨es₇, rfl, h₅⟩ := runs_say_bind_iff.1 h₄
      have hw₅ := hw₄.tail_of_quiet trivial
      rcases hw₅.stages h₅ with ⟨_, -, hset⟩ | ⟨_, es₈, es₉, v₂, rfl, hset, hv₂, hend, hw₆⟩
      · have hsettled := (setAndRecord_settled (c := (record machine c).ordered)
          (hpath ▸ hw₅) hset).1
        exact hsettled.mono fun e he => by simp [he]
      · obtain ⟨rfl, rfl⟩ := runs_done_iff.1 hend
        obtain rfl := World.follows_nil.1 hw₆
        have hsettled := (setAndRecord_settled (c := (record machine c).ordered)
          (hpath ▸ hv₂) hset).1
        exact hsettled.mono fun e he => by simp [he]
  · cases ho

theorem recordAndSet_runs {steps : String} {mint : Option Address} {o : Except Failure Address}
    (hw : w.Follows place.path es w')
    (h : (recordAndSet payer machine place steps mint).Runs es o) :
    w' = w ∨ ∃ c, Cache.ofContent place.path place.env place.name true w.record = .ok c ∧
      Settled payer machine (record machine c).ordered (w.saves (record machine c).ordered) es
        w' := by
  obtain ⟨_, -, ⟨_, -, -, hsame⟩ | ⟨c, -, hload, ⟨hsame, -⟩ | hsettled⟩⟩ := recordAndSet_cases hw h
  · exact .inl hsame
  · exact .inl hsame
  · exact .inr ⟨c, hload, hsettled⟩

/-- **The first half of a deployment** creates a machine or stops without one. -/
theorem prepare_runs {o : Except Failure (Option Address × Address)} (hw : w.Follows path es w')
    (h : (prepare payer now config choice).Runs es o) :
    (∃ mint machine t, o = .ok (mint, machine) ∧ t.Creates machine ∧ w' = w.sends [t] [t]) ∨
      ∃ e sent, o = .error e ∧ (∀ t ∈ sent, ∃ m, t.Creates m) ∧ w' = w.sends sent [] := by
  have hnone : w = w.sends [] [] := by simp [World.sends]
  have hplan : (Script.ofExcept id (plan config choice)).Only Request.IsQuiet fun _ => True :=
    only_ofExcept fun _ _ => trivial
  rcases hw.stages_of_only h hplan with ⟨e, rfl, -, rfl⟩ | ⟨p, _, es₁, rfl, -, h₁, hw₁⟩
  · exact .inr ⟨e, [], rfl, by simp, hnone⟩
  rcases hw₁.stages_of_only h₁ (quiet_checkCollection _ _) with
    ⟨e, rfl, -, rfl⟩ | ⟨_, _, es₂, rfl, -, h₂, hw₂⟩
  · exact .inr ⟨e, [], rfl, by simp, hnone⟩
  rcases hw₂.stages_of_only h₂ (Settings.quiet_resolve _ _ _) with
    ⟨e, rfl, -, rfl⟩ | ⟨settings, _, es₃, rfl, -, h₃, hw₃⟩
  · exact .inr ⟨e, [], rfl, by simp, hnone⟩
  obtain ⟨es₄, rfl, h₄⟩ := runs_say_bind_iff.1 h₃
  have hw₄ := hw₃.tail_of_quiet trivial
  rcases hw₄.stages h₄ with ⟨e, rfl, hcreate⟩ | ⟨machine, es₅, es₆, v, rfl, hcreate, hv, hend, hw₅⟩
  · rcases Machine.create_runs hw₄ hcreate with ⟨_, _, ho, -⟩ | ⟨_, sent, -, -, hsent, rfl⟩
    · cases ho
    · exact .inr ⟨e, sent, rfl, hsent, rfl⟩
  · obtain ⟨rfl, rfl⟩ := runs_done_iff.1 hend
    obtain rfl := World.follows_nil.1 hw₅
    rcases Machine.create_runs hv hcreate with ⟨_, t, ho, ht, rfl⟩ | ⟨_, _, ho, -⟩
    · cases ho
      exact .inl ⟨_, machine, t, rfl, ht, rfl⟩
    · cases ho

/-- **Every run of a deployment** stops without a machine, leaves one unrecorded, or records it. -/
theorem run_runs {o : Except Failure Address} (hw : w.Follows place.path es w')
    (h : (run payer now config place choice).Runs es o) : Deployed payer place w es w' := by
  rw [run_eq_prepare_bind] at h
  rcases hw.stages h with ⟨_, -, h₁⟩ | ⟨⟨mint, machine⟩, es₁, es₂, v, rfl, h₁, hv, h₂, hw₂⟩
  · rcases prepare_runs hw h₁ with ⟨_, _, _, ho, -⟩ | ⟨_, sent, -, hsent, rfl⟩
    · cases ho
    · exact .stopped hsent
  · rcases prepare_runs hv h₁ with ⟨_, _, t, ho, ht, rfl⟩ | ⟨_, _, ho, -⟩
    · cases ho
      rcases recordAndSet_runs hw₂ h₂ with rfl | ⟨c, hload, hsettled⟩
      · exact .unrecorded ht
      · exact .recorded ht hload (hsettled.mono fun e he => by simp [he])
    · cases ho

end Deploy

end CandyDrop
