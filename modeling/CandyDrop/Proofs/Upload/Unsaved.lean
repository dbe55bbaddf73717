import CandyDrop.Proofs.Script.Local
import CandyDrop.Proofs.Script.Unaffected
import CandyDrop.Proofs.Upload.Outcome

/-!
# Records that cannot be saved

The record is saved after every batch that is written, and any of these saves may go wrong. The work
goes on as if it had not: what is asked for, and what is recorded in memory, depends on a save only
in that a record that was saved is in the order of its file (`Progress.Alike`, `unaffected_runAll`).
The faults are kept until everything that is in flight was waited for. Then the fault of the last
save is reported if there is one, and else the first of them (`runAll_saveFault`).
-/

namespace CandyDrop

/-! ## Records in memory -/

namespace Cache

variable {c c' : Cache}

/-- Records with the same file are alike but for the order of their items. -/
theorem ordered_eq_ordered_iff : c.ordered = c'.ordered ↔
    c.program = c'.program ∧ c.env = c'.env ∧ c.cacheName = c'.cacheName ∧ c.path = c'.path ∧
      ∀ key, c.items.get? key = c'.items.get? key := by
  constructor
  · intro h
    refine ⟨(congrArg program h :), (congrArg env h :), (congrArg cacheName h :),
      (congrArg path h :), fun key => ?_⟩
    rw [← get?_ordered, h, get?_ordered]
  · rintro ⟨hprogram, henv, hname, hpath, hget⟩
    rw [ordered, ordered, Table.sorted_congr hget, hprogram, henv, hname, hpath]

theorem ordered_markWritten (h : c.ordered = c'.ordered) (positions : List Nat) :
    (c.markWritten positions).ordered = (c'.markWritten positions).ordered := by
  obtain ⟨hprogram, henv, hname, hpath, hget⟩ := ordered_eq_ordered_iff.1 h
  refine ordered_eq_ordered_iff.2 ⟨hprogram, henv, hname, hpath, fun key => ?_⟩
  rw [(marks_markWritten c positions).get?, (marks_markWritten c' positions).get?, hget]

end Cache

namespace Schedule

open Script Window

variable {payer machine : Address} {limit : Nat} {c c' : Cache} {p p' q : Progress}
  {es es' : List Event} {batch : Batch} {bs out waiting left batches : List Batch}

/-! ## The work goes on -/

/-- What was recorded is the same but for the order of the record and for the fault that was
noted. -/
structure Progress.Alike (p q : Progress) : Prop where
  cache : p.cache.ordered = q.cache.ordered
  written : p.written = q.written
  faults : p.faults = q.faults

/-- The same of what comes of it in the end. -/
structure Ending.Alike (x y : Ending) : Prop where
  cache : x.cache.ordered = y.cache.ordered
  outcome : x.outcome = y.outcome

theorem unaffected_trySave (h : c.ordered = c'.ordered) :
    Unaffected (fun x y => x.1.ordered = y.1.ordered) c.trySave c'.trySave := by
  have hpath : c.path = c'.path := (congrArg Cache.path h :)
  rw [Cache.trySave, Cache.trySave, Cache.tryWrite, Cache.tryWrite, hpath, h]
  refine (unaffected_write fun a b => .done trivial).bind
    (R := fun _ _ => True) fun a b _ => ?_
  cases a <;> cases b <;> exact .done (by simp only [Cache.ordered_ordered, h])

theorem unaffected_record (h : p.Alike q) (batch : Batch) (answer : Except ClusterFault Signature) :
    Unaffected Progress.Alike (record batch answer p) (record batch answer q) := by
  by_cases hdone : batch ≠ [] → ∃ signature, answer = .ok signature
  · rw [record_of_done hdone, record_of_done hdone]
    refine (unaffected_trySave (Cache.ordered_markWritten h.cache _)).bind fun x y hxy => ?_
    exact .done ⟨hxy, by rw [h.written], h.faults⟩
  · cases batch with
    | nil => exact absurd (fun hne => absurd rfl hne) hdone
    | cons l ls =>
      cases answer with
      | ok signature => exact absurd (fun _ => ⟨signature, rfl⟩) hdone
      | error fault => exact .done ⟨h.cache, h.written, by rw [h.faults]⟩

theorem unaffected_startAll (bs : List Batch) :
    Unaffected (fun _ _ => True) (startAll payer machine bs) (startAll payer machine bs) := by
  induction bs with
  | nil => exact .done trivial
  | cons b bs ih => exact unaffected_ask (by simp) fun _ => ih

/-- **Waiting for batches** is not affected by what was saved. The induction is on the number of
batches that are not answered. -/
theorem unaffected_drain (h : p.Alike q) :
    Unaffected (fun x y => x.1.Alike y.1 ∧ x.2 = y.2) (drain payer machine out waiting p)
      (drain payer machine out waiting q) := by
  induction hn : out.length + waiting.length using Nat.strongRecOn
    generalizing out waiting p q with
  | ind n ih =>
    cases out with
    | nil =>
      rw [drain, drain]
      exact .done ⟨h, rfl⟩
    | cons b bs =>
      rw [drain_cons, drain_cons]
      refine unaffected_ask (by simp) fun first => ?_
      obtain ⟨i, answer⟩ := first
      refine (unaffected_record h _ answer).bind fun p₁ q₁ h₁ => ?_
      refine unaffected_ask (by simp) fun stop => ?_
      refine (unaffected_startAll _).bind fun _ _ _ => ih _ ?_ h₁ rfl
      have hrefill := congrArg List.length (refill_append_drop stop waiting)
      rw [List.length_append] at hrefill
      rw [List.length_append, length_others]
      rw [List.length_cons] at hn
      omega

/-- **Writing batches** is not affected by which of the saves go wrong. -/
theorem unaffected_runAll (payer machine : Address) (limit : Nat) (c : Cache)
    (batches : List Batch) :
    Unaffected Ending.Alike (runAll payer machine limit c batches)
      (runAll payer machine limit c batches) := by
  refine unaffected_ask (by simp) fun _ => (unaffected_startAll _).bind fun _ _ _ => ?_
  refine (unaffected_drain ⟨rfl, rfl, rfl⟩).bind fun x y hdrained => ?_
  obtain ⟨hp, hleft⟩ := hdrained
  refine (unaffected_trySave hp.cache).bind fun x' y' hcache => .done ⟨hcache, ?_⟩
  dsimp only
  rw [hp.written, hp.faults, hleft]

/-! ## The fault that is reported -/

/-- The fault of the last save, or else the first one. -/
def reported? (es : List Event) : Option String :=
  (es.getLast?.bind Event.saveFault?).or (es.findSome? Event.saveFault?)

theorem reported?_eq_none_iff : reported? es = none ↔ ∀ e ∈ es, e.saves = true := by
  rw [reported?, Option.or_eq_none_iff, List.findSome?_eq_none_iff]
  simp only [Event.saves_eq_isNone, Option.isNone_iff_eq_none]
  refine ⟨And.right, fun h => ⟨?_, h⟩⟩
  cases hlast : es.getLast? with
  | none => rfl
  | some e => exact h e (List.mem_of_getLast? hlast)

/-- There is something to report exactly if a save has gone wrong. -/
theorem exists_reported?_iff :
    (∃ reason, reported? es = some reason) ↔ ∃ e ∈ es, e.saves = false := by
  rw [← Option.ne_none_iff_exists', ne_eq, reported?_eq_none_iff]
  simp

theorem record_saveFault {answer : Except ClusterFault Signature}
    (h : (record batch answer p).Runs es (.ok p')) :
    p'.saveFault = p.saveFault.or (es.findSome? Event.saveFault?) := by
  rcases record_runs_iff.1 h with ⟨-, fault, rfl, heq⟩ | ⟨fault, -, -, rfl, heq⟩
  · cases heq
    cases fault <;> rfl
  · cases heq
    exact Option.or_none.symm

theorem findSome?_launches (bs : List Batch) :
    (bs.map (launchOf payer machine)).findSome? Event.saveFault? = none :=
  List.findSome?_eq_none_iff.2 (List.forall_mem_map.2 fun _ _ => rfl)

/-- The fault that is noted in rounds is the first one. -/
theorem Rounds.saveFault (h : Rounds payer machine out waiting p es p' left) :
    p'.saveFault = p.saveFault.or (es.findSome? Event.saveFault?) := by
  induction h with
  | nothing waiting p => exact Option.or_none.symm
  | round i answer stop hrecord _ ih =>
    rw [ih, record_saveFault hrecord, Option.or_assoc, findSome?_cons_eq_or, List.findSome?_append,
      findSome?_cons_eq_or, List.findSome?_append, findSome?_launches]
    rfl

/-- **The fault that is reported** is that of the last save, or else the first one. -/
theorem runAll_saveFault {ending : Ending}
    (h : (runAll payer machine limit c batches).Runs es (.ok ending)) :
    ending.saveFault = reported? es := by
  obtain ⟨rounds, p, left, fault, hrounds, rfl, heq⟩ := runAll_rounds h
  cases heq
  have hlast : (whole payer machine limit batches rounds
      ⟨.write p.cache.path p.cache.ordered.render, fault⟩).getLast? =
        some ⟨.write p.cache.path p.cache.ordered.render, fault⟩ := by
    rw [whole, ← List.append_assoc, ← List.cons_append]
    exact List.getLast?_concat
  have hnoted : p.saveFault = rounds.findSome? Event.saveFault? := hrounds.saveFault
  have hall : (whole payer machine limit batches rounds
      ⟨.write p.cache.path p.cache.ordered.render, fault⟩).findSome? Event.saveFault? =
        p.saveFault.or fault := by
    rw [whole, findSome?_cons_eq_or, List.findSome?_append, findSome?_launches,
      List.findSome?_append, ← hnoted]
    cases fault <;> rfl
  rw [reported?, hlast, hall]
  change fault.or p.saveFault = fault.or (p.saveFault.or fault)
  cases fault with
  | none => rw [Option.or_none]
  | some reason => rfl

theorem Ending.result_eq_error_iff {ending : Ending} {e : Failure} :
    ending.result = .error e ↔ ∃ reason, ending.saveFault = some reason ∧ e = .unwritable reason := by
  unfold Ending.result
  cases ending.saveFault with
  | none => simp
  | some reason => simp [eq_comm]

/-! ## The whole -/

theorem after_of_differInWrites (h : DifferInWrites es es') :
    after es' = after es ∧ launched es' = launched es := by
  have hstep : ∀ (v : Window) (e : Event), v.step e.mended = v.step e := by
    rintro v ⟨r, a⟩
    cases r <;> rfl
  have hlaunch : ∀ e : Event, e.mended.launch? = e.launch? := by
    rintro ⟨r, a⟩
    cases r <;> rfl
  have hafter : ∀ fs : List Event, after (fs.map Event.mended) = after fs := fun fs => by
    rw [after, List.foldl_map]
    exact congrArg (fun f => List.foldl f _ fs) (funext fun v => funext (hstep v))
  have hlaunched : ∀ fs : List Event, launched (fs.map Event.mended) = launched fs := fun fs => by
    rw [launched, List.filterMap_map]
    exact congrArg (fun f => List.filterMap f fs) (funext hlaunch)
  rw [DifferInWrites] at h
  exact ⟨by rw [← hafter, h, hafter], by rw [← hlaunched, h, hlaunched]⟩

/-- **A record that cannot be saved does not stop the work.** All batches that were started are
waited for. There is an error exactly if a save has gone wrong, and then it is the fault of the last
save, or else the first one. With any other saves gone wrong, or none, and everything else answered
alike, there is again a run: it starts the same batches in the same order, gets the same answers, and
has the same items for written in memory in the end. -/
theorem run_unsaved (payer machine : Address) (limit : Nat) (c : Cache) (batches : List Batch)
    {es : List Event} {o : Except Failure (Cache × Outcome)}
    (hrun : (run payer machine limit c batches).Runs es o) :
    ∃ ending : Ending, (runAll payer machine limit c batches).Runs es (.ok ending) ∧
      o = ending.result ∧
      (after es).out = [] ∧
      ((after es).answered.map Prod.fst).Perm (List.range (launched es).length) ∧
      ((∃ e, o = .error e) ↔ ∃ e ∈ es, e.saves = false) ∧
      (∀ e, o = .error e ↔ ∃ reason, reported? es = some reason ∧ e = .unwritable reason) ∧
      ∀ es', DifferInWrites es es' →
        ∃ ending' : Ending, (runAll payer machine limit c batches).Runs es' (.ok ending') ∧
          (run payer machine limit c batches).Runs es' ending'.result ∧
          launched es' = launched es ∧ after es' = after es ∧
          ending'.outcome = ending.outcome ∧
          ∀ key, ending'.cache.items.get? key = ending.cache.items.get? key := by
  obtain ⟨ending, hall, rfl⟩ := run_runs_iff.1 hrun
  obtain ⟨hout, hanswered⟩ := (runAll_scheduled hall).answered
  have herror : ∀ e, ending.result = .error e ↔
      ∃ reason, reported? es = some reason ∧ e = .unwritable reason := fun e => by
    rw [Ending.result_eq_error_iff, runAll_saveFault hall]
  refine ⟨ending, hall, rfl, hout, hanswered, ?_, herror, fun es' hes => ?_⟩
  · rw [← exists_reported?_iff]
    simp [herror]
  · obtain ⟨x, ending', heq, hall', halike⟩ :=
      (unaffected_runAll payer machine limit c batches).runs hall hes
    cases heq
    obtain ⟨hafter, hlaunched⟩ := after_of_differInWrites hes
    exact ⟨ending', hall', run_runs_iff.2 ⟨ending', hall', rfl⟩, hlaunched, hafter,
      halike.outcome.symm, fun key => ((Cache.ordered_eq_ordered_iff.1 halike.cache).2.2.2.2 key).symm⟩

namespace Sample

/-- The second one of two batches in flight is refused, and the saves go wrong for these reasons. -/
def unsaved (faults : List (Option String)) (before : List Event) : (r : Request) → r.Answer
  | .write _ _ => faults.getD (before.countP Event.isSave) none
  | r => answers [(1, false)] [] before r

/-- The transcript of writing the batches in this way. -/
def unsavedEvents (faults : List (Option String)) : List Event :=
  ((run wallet target 2 cache lines).play (unsaved faults) []).1

end Sample

/-- Two saves go wrong, but not the last one, and so the fault of the first of them is reported. The
work is the same if no save goes wrong. -/
theorem run_unsaved_twice :
    ∃ es, (run Sample.wallet Sample.target 2 Sample.cache Sample.lines).Runs es
        (.error (.unwritable "full")) ∧
      es.filterMap Event.saveFault? = ["full", "locked"] ∧
      (after es).answered.map Prod.fst = [1, 0, 2] ∧
      ∃ ending : Ending, (run Sample.wallet Sample.target 2 Sample.cache Sample.lines).Runs
          (es.map Event.mended) ending.result ∧
        after (es.map Event.mended) = after es ∧ ∃ x, ending.result = .ok x := by
  have hchecks :
      let es := Sample.unsavedEvents [some "full", some "locked"]
      es.filterMap Event.saveFault? = ["full", "locked"] ∧
      (after es).answered.map Prod.fst = [1, 0, 2] ∧ reported? es = some "full" ∧
      reported? (es.map Event.mended) = none := by decide +kernel
  obtain ⟨hfaults, horder, hreported, hmended⟩ := hchecks
  have hrun : (run Sample.wallet Sample.target 2 Sample.cache Sample.lines).Runs
      (Sample.unsavedEvents [some "full", some "locked"]) _ := Script.runs_play ..
  obtain ⟨ending, -, -, -, -, -, herror, hother⟩ := run_unsaved _ _ _ _ _ hrun
  rw [(herror _).2 ⟨"full", hreported, rfl⟩] at hrun
  obtain ⟨ending', -, hrun', -, hafter, -⟩ := hother _ (differInWrites_mended _)
  refine ⟨_, hrun, hfaults, horder, ending', hrun', hafter, ?_⟩
  obtain ⟨-, -, -, -, -, -, herror', -⟩ := run_unsaved _ _ _ _ _ hrun'
  cases hresult : ending'.result with
  | ok x => exact ⟨x, rfl⟩
  | error e =>
    obtain ⟨reason, hreason, -⟩ := (herror' e).1 hresult
    rw [hmended] at hreason
    cases hreason

end Schedule

end CandyDrop
