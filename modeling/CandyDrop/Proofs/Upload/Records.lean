import CandyDrop.Proofs.Upload.Rounds
import CandyDrop.Proofs.Upload.Stages

/-!
# What an upload writes to its record

From the moment there is a machine, every record that an upload writes names it (`Request.Records`),
also if some of the writes fail or the upload stops half-way. So the file of the record names the
machine of the upload in the end, whichever of the writes went through (`finish_names`).
-/

namespace CandyDrop

/-- A record that a request writes names this machine. -/
def Request.Records (machine : Address) : Request → Prop
  | .write _ text => ∃ c : Cache, text = c.render ∧ c.machine = .ok (some machine)
  | _ => True

theorem Cache.machine_congr {c c' : Cache} (h : c'.program = c.program) :
    c'.machine = c.machine := by
  unfold machine
  rw [h]

/-! ## The file -/

namespace World

/-- The file of the record is one that names this machine. -/
def Names (w : World) (machine : Address) : Prop :=
  ∃ c : Cache, w.record = .bytes (Bytes.ofText c.render) ∧ c.machine = .ok (some machine)

variable {path : String} {w w' : World} {e : Event} {es : List Event} {machine : Address}

theorem Names.step (h : w.Names machine) (he : e.request.Records machine) :
    (w.step path e).Names machine := by
  obtain ⟨r, answer⟩ := e
  cases r with
  | submit t => cases answer <;> exact h
  | await n =>
    obtain ⟨i, answer⟩ := answer
    cases answer <;> exact h
  | write p text =>
    cases answer with
    | some reason => exact h
    | none =>
      rw [World.step]
      split
      · obtain ⟨c, rfl, hc⟩ := he
        exact ⟨c, rfl, hc⟩
      · exact h
  | _ => exact h

/-- **A file that names a machine goes on naming it** if every record that is written does. -/
theorem Names.follows (h : w.Names machine) (hw : w.Follows path es w')
    (hes : ∀ e ∈ es, e.request.Records machine) : w'.Names machine := by
  induction es generalizing w with
  | nil =>
    obtain rfl := follows_nil.1 hw
    exact h
  | cons e es ih =>
    rw [List.forall_mem_cons] at hes
    exact ih (h.step hes.1) hw.2 hes.2

end World

/-! ## The second half of an upload -/

variable {payer machine m : Address} {es : List Event} {c c' : Cache}

open Script

namespace Schedule

variable {p p' : Progress} {out waiting left : List Batch}

theorem record_records {batch : Batch} {answer : Except ClusterFault Signature}
    (h : (record batch answer p).Runs es (.ok p')) (hp : p.cache.machine = .ok (some m)) :
    p'.cache.machine = .ok (some m) ∧ ∀ e ∈ es, e.request.Records m := by
  have hmachine := Cache.machine_congr (record_adds h).marks.program
  refine ⟨hmachine.trans hp, ?_⟩
  rcases record_runs_iff.1 h with ⟨-, fault, rfl, -⟩ | ⟨_, -, -, rfl, -⟩
  · rw [List.forall_mem_singleton]
    exact ⟨(marked batch p.cache).ordered, rfl, hp⟩
  · simp

theorem records_launches (bs : List Batch) :
    ∀ e ∈ bs.map (launchOf payer machine), e.request.Records m := by
  intro e he
  obtain ⟨b, -, rfl⟩ := List.mem_map.1 he
  trivial

theorem Rounds.records (h : Rounds payer machine out waiting p es p' left)
    (hp : p.cache.machine = .ok (some m)) :
    p'.cache.machine = .ok (some m) ∧ ∀ e ∈ es, e.request.Records m := by
  induction h with
  | nothing waiting p => exact ⟨hp, by simp⟩
  | round i answer stop hrecord _ ih =>
    obtain ⟨hp₁, hsaves⟩ := record_records hrecord hp
    obtain ⟨hp', hrest⟩ := ih hp₁
    refine ⟨hp', List.forall_mem_cons.2 ⟨trivial, List.forall_mem_append.2 ⟨hsaves, ?_⟩⟩⟩
    refine List.forall_mem_cons.2 ⟨trivial, List.forall_mem_append.2 ⟨?_, hrest⟩⟩
    exact records_launches _

/-- **Every record that is written along with batches names the machine.** -/
theorem run_records {limit : Nat} {batches : List Batch} {o : Except Failure (Cache × Outcome)}
    (h : (run payer machine limit c batches).Runs es o) (hc : c.machine = .ok (some m)) :
    (∀ e ∈ es, e.request.Records m) ∧
      ∀ c' outcome, o = .ok (c', outcome) → c'.machine = .ok (some m) := by
  obtain ⟨ending, hall, rfl⟩ := run_runs_iff.1 h
  obtain ⟨rounds, p, left, fault, hrounds, rfl, heq⟩ := runAll_rounds hall
  cases heq
  obtain ⟨hp, hevents⟩ := hrounds.records hc
  constructor
  · refine List.forall_mem_cons.2 ⟨trivial, List.forall_mem_append.2 ⟨records_launches _, ?_⟩⟩
    refine List.forall_mem_append.2 ⟨hevents, List.forall_mem_singleton.2 ?_⟩
    exact ⟨p.cache.ordered, rfl, hp⟩
  · intro c' outcome hresult
    unfold Ending.result at hresult
    split at hresult
    · cases hresult
    · cases hresult
      unfold Progress.ending
      dsimp only
      split <;> exact hp

end Schedule

namespace Upload

variable {options : Options} {p : Prepared} {path : String} {w w' : World}

theorem writeLines_records {limit : Nat} {bs : List Batch} {o : Except Failure Cache}
    (h : (writeLines payer machine limit bs c).Runs es o) (hc : c.machine = .ok (some m)) :
    (∀ e ∈ es, e.request.Records m) ∧ ∀ c', o = .ok c' → c'.machine = .ok (some m) := by
  cases bs with
  | nil =>
    obtain ⟨es₁, rfl, h₁⟩ := runs_say_bind_iff.1 h
    obtain ⟨rfl, rfl⟩ := runs_done_iff.1 h₁
    refine ⟨List.forall_mem_singleton.2 trivial, fun c' ho => ?_⟩
    cases ho
    exact hc
  | cons b bs =>
    rcases runs_bind_iff.1 h with ⟨e, rfl, hrun⟩ | ⟨⟨c₁, outcome⟩, es₁, es₂, rfl, hrun, hend⟩
    · exact ⟨(Schedule.run_records hrun hc).1, by rintro _ ⟨⟩⟩
    · obtain ⟨hevents, hresult⟩ := Schedule.run_records hrun hc
      dsimp only at hend
      split at hend
      · obtain ⟨rfl, rfl⟩ := runs_done_iff.1 hend
        rw [List.append_nil]
        refine ⟨hevents, fun c' ho => ?_⟩
        cases ho
        exact hresult _ _ rfl
      · obtain ⟨rfl, rfl⟩ := runs_fail_iff.1 hend
        rw [List.append_nil]
        exact ⟨hevents, by rintro _ ⟨⟩⟩

theorem only_setCollection_records {choice : CollectionChoice} {collection : Option Address}
    (hc : c.machine = .ok (some m)) :
    (setCollection payer machine choice collection c).Only (Request.Records m) fun _ => True := by
  unfold setCollection
  split
  · next mint =>
    split
    · trivial
    · refine (only_request trivial).bind fun _ => Only.bind ?_ fun _ => only_done _
      refine Only.bind ⟨trivial, fun _ => only_ofExcept fun _ _ => trivial⟩ fun _ => ?_
      exact Cache.only_save ⟨_, rfl, hc⟩
  · trivial

theorem finish_records {o : Except Failure Address} (h : (finish payer options p).Runs es o)
    (hc : p.cache.machine = .ok (some m)) : ∀ e ∈ es, e.request.Records m := by
  rcases runs_bind_iff.1 h with ⟨e, -, hwrite⟩ | ⟨c₁, es₁, es₂, rfl, hwrite, hset⟩
  · exact (writeLines_records hwrite hc).1
  · obtain ⟨hevents, hresult⟩ := writeLines_records hwrite hc
    have honly : (setCollection payer p.machine options.choice p.survey.plan.collection c₁ >>=
        fun _ => pure p.machine).Only (Request.Records m) fun _ => True :=
      (only_setCollection_records (hresult _ rfl)).bind fun _ => only_done _
    exact List.forall_mem_append.2 ⟨hevents, hset.forall_request honly⟩

/-- **However the second half of an upload ends**, the file of the record names the machine. -/
theorem finish_names {o : Except Failure Address} (hw : w.Follows path es w')
    (h : (finish payer options p).Runs es o)
    (hrecord : w.record = .bytes (Bytes.ofText p.cache.render))
    (hc : p.cache.machine = .ok (some m)) : w'.Names m :=
  World.Names.follows ⟨p.cache, hrecord, hc⟩ hw (finish_records h hc)

end Upload

end CandyDrop
