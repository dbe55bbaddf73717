import CandyDrop.Proofs.Script.Play
import CandyDrop.Proofs.Upload.Window
import CandyDrop.Rehearsal.Ledger

/-!
# What comes of writing batches

What is recorded along a transcript is what can be read off its window (`Recorded`): the record is
marked at the positions of the batches that are written, and nothing else of it changes. So the order
in which batches are answered shows in the order of the positions and of the faults that are
reported, but not in the record, in its file or in whether everything was written (`run_settled`).
-/

namespace CandyDrop.Schedule

open Window

variable {payer machine : Address} {limit : Nat} {batches : List Batch} {c : Cache}
  {p p' p₁ : Progress} {before es fs saves : List Event} {b : Batch}
  {bs out waiting next left : List Batch}

/-! ## Reading a window -/

namespace Window

/-- The numbers of the batches that are written, in the order of their answers. -/
def done (batches : List Batch) (v : Window) : List Nat :=
  (v.answered.filter fun a => isWritten (batches.getD a.1 []) a.2).map Prod.fst

/-- The positions of the lines of the batches that are written. -/
def written (batches : List Batch) (v : Window) : List UInt32 :=
  (v.done batches).flatMap fun k => (batches.getD k []).map ConfigLine.index

/-- The faults of the other batches that were answered. -/
def faults (batches : List Batch) (v : Window) : List BatchFault :=
  v.answered.filterMap fun a => fault? (batches.getD a.1 []) a.2

/-- Every batch that was answered is written or has a fault. -/
theorem length_done_add_length_faults (batches : List Batch) (v : Window) :
    (v.done batches).length + (v.faults batches).length = v.answered.length := by
  have hone : ∀ a : Nat × Except ClusterFault Signature,
      (fault? (batches.getD a.1 []) a.2).isSome =
        decide ¬isWritten (batches.getD a.1 []) a.2 = true := fun a => by
    rw [isSome_fault?]
    cases isWritten (batches.getD a.1 []) a.2 <;> rfl
  rw [done, faults, List.length_map, ← List.countP_eq_length_filter,
    List.length_filterMap_eq_countP]
  simp only [hone]
  exact (List.length_eq_countP_add_countP _).symm

section

variable {v v' : Window} {k : Nat} {answer : Except ClusterFault Signature}

theorem written_of_answered (batches : List Batch) (h : v'.answered = v.answered ++ [(k, answer)]) :
    v'.written batches = v.written batches ++ writtenLines (batches.getD k []) answer := by
  have hone : [(k, answer)].filter (fun a => isWritten (batches.getD a.1 []) a.2) =
      if isWritten (batches.getD k []) answer then [(k, answer)] else [] := by
    rw [List.filter_singleton]
    cases isWritten (batches.getD k []) answer <;> rfl
  rw [written, done, h, List.filter_append, List.map_append, List.flatMap_append, hone]
  refine congrArg (written batches v ++ ·) ?_
  unfold writtenLines
  cases isWritten (batches.getD k []) answer <;> simp

theorem faults_of_answered (batches : List Batch) (h : v'.answered = v.answered ++ [(k, answer)]) :
    v'.faults batches = v.faults batches ++ (fault? (batches.getD k []) answer).toList := by
  rw [faults, h, List.filterMap_append]
  refine congrArg (faults batches v ++ ·) ?_
  rw [List.filterMap_cons]
  cases fault? (batches.getD k []) answer <;> rfl

end

theorem answered_append (es : List Event) (h : ∀ e ∈ fs, e.isAnswer = false) :
    (after (es ++ fs)).answered = (after es).answered := by
  induction fs using List.reverseRecOn with
  | nil => rw [List.append_nil]
  | append_singleton fs e ih =>
    rw [← List.append_assoc, after_concat, ← ih fun e he => h e (by simp [he])]
    obtain ⟨r, a⟩ := e
    cases r with
    | await n => cases h ⟨.await n, a⟩ (by simp)
    | _ => rfl

end Window

/-! ## What is recorded -/

/-- What was recorded along a part of a transcript is what can be read off it. -/
structure Recorded (batches : List Batch) (c : Cache) (before : List Event) (p : Progress) :
    Prop where
  env : p.cache.env = c.env
  cacheName : p.cache.cacheName = c.cacheName
  marks : c.Marks p.cache (((after before).written batches).map UInt32.toNat)
  written : p.written = (after before).written batches
  faults : p.faults = (after before).faults batches
  saveFault : (∀ e ∈ before, e.saves) → p.saveFault = none

theorem recorded_start (batches : List Batch) (c : Cache) (hes : ∀ e ∈ es, e.isAnswer = false) :
    Recorded batches c es ⟨c, [], [], none⟩ := by
  have hanswered := answered_append [] hes
  rw [List.nil_append] at hanswered
  refine ⟨rfl, rfl, ?_, ?_, ?_, fun _ => rfl⟩
  · rw [Window.written, done, hanswered]
    exact .refl c
  · rw [Window.written, done, hanswered]
    rfl
  · rw [Window.faults, hanswered]
    rfl

/-- **Recording an answer** adds what can be read off it. -/
theorem Recorded.answer (h : Recorded batches c before p)
    (htracks : Tracks batches before (b :: bs) waiting) (i : Fin (bs.length + 1))
    (answer : Except ClusterFault Signature)
    (hrecord : (record ((b :: bs).get i) answer p).Runs saves (.ok p₁))
    (hfs : ∀ e ∈ fs, e.isAnswer = false) :
    Recorded batches c (before ++ (⟨.await bs.length, (i, answer)⟩ :: (saves ++ fs))) p₁ := by
  obtain ⟨k, hk, hanswered⟩ := htracks.answered i answer
  have hbatch : batches.getD k [] = (b :: bs).get i := by
    rw [List.getD_eq_getElem?_getD, hk, Option.getD_some]
  have hother : ∀ e ∈ saves ++ fs, e.isAnswer = false := by
    intro e he
    rcases List.mem_append.1 he with he | he
    · exact (Event.IsOther.of_isSave (isSave_of_record hrecord e he)).2
    · exact hfs e he
  have hafter : (after (before ++ (⟨.await bs.length, (i, answer)⟩ :: (saves ++ fs)))).answered =
      (after before).answered ++ [(k, answer)] := by
    have hsplit := answered_append (before ++ [⟨.await bs.length, (i, answer)⟩]) hother
    rw [List.append_assoc] at hsplit
    exact hsplit.trans hanswered
  have hwritten := written_of_answered batches hafter
  have hfaults := faults_of_answered batches hafter
  rw [hbatch] at hwritten hfaults
  have hnew := record_adds hrecord
  refine ⟨hnew.env.trans h.env, hnew.cacheName.trans h.cacheName, ?_, ?_, ?_, fun hall => ?_⟩
  · rw [hwritten, List.map_append]
    exact h.marks.trans hnew.marks
  · rw [hwritten, hnew.written, h.written]
  · rw [hfaults, hnew.faults, h.faults]
  · rw [hnew.saveFault fun e he => hall e (by simp [he]), h.saveFault fun e he => hall e (by simp [he])]

theorem isAnswer_launches (bs : List Batch) :
    ∀ e ∈ bs.map (launchOf payer machine), e.isAnswer = false :=
  List.forall_mem_map.2 fun _ _ => rfl

/-- **What is recorded in rounds** is what can be read off them. -/
theorem Rounds.recorded (h : Rounds payer machine out waiting p es p' left)
    (htracks : Tracks batches before out waiting) (hrecorded : Recorded batches c before p) :
    Recorded batches c (before ++ es) p' := by
  induction h generalizing before with
  | nothing waiting p => rwa [List.append_nil]
  | @round b bs waiting left p p₁ p' saves es i answer stop hrecord hrest ih =>
    have hround := htracks.round payer machine i answer (isSave_of_record hrecord) stop
    have hasks : ∀ e ∈ ⟨.interrupted, stop⟩ :: (refill stop waiting).map (launchOf payer machine),
        e.isAnswer = false := List.forall_mem_cons.2 ⟨rfl, isAnswer_launches _⟩
    have hanswer := hrecorded.answer htracks i answer hrecord hasks
    rw [← answering_append] at hanswer
    have hrest := ih hround hanswer
    rwa [List.append_assoc, List.append_assoc, answering_append] at hrest

theorem Recorded.append (h : Recorded batches c before p) (hfs : ∀ e ∈ fs, e.isAnswer = false) :
    Recorded batches c (before ++ fs) p := by
  have hanswered := answered_append before hfs
  have hwritten : (after (before ++ fs)).written batches = (after before).written batches := by
    rw [Window.written, done, hanswered]
    rfl
  have hfaults : (after (before ++ fs)).faults batches = (after before).faults batches := by
    rw [Window.faults, hanswered]
    rfl
  exact ⟨h.env, h.cacheName, hwritten ▸ h.marks, h.written.trans hwritten.symm,
    h.faults.trans hfaults.symm, fun hall => h.saveFault fun e he => hall e (by simp [he])⟩

/-- **What is recorded by writing batches**, before the record is saved for the last time. -/
theorem runAll_recorded {o : Except Failure Ending}
    (hrun : (runAll payer machine limit c batches).Runs es o) :
    ∃ p fault, Recorded batches c es p ∧
      es.getLast? = some ⟨.write c.path p.cache.ordered.render, fault⟩ ∧
      o = .ok (p.ending (batches.drop (launched es).length) fault) := by
  obtain ⟨rounds, p, left, fault, hrounds, rfl, rfl⟩ := runAll_rounds hrun
  have hsave : Event.isSave ⟨.write p.cache.path p.cache.ordered.render, fault⟩ = true := rfl
  obtain ⟨-, hsteady⟩ := hrounds.every_whole hsave
  have hstart : Recorded batches c ([opening batches] ++
      (batches.take (effectiveLimit limit)).map (launchOf payer machine)) ⟨c, [], [], none⟩ :=
    recorded_start batches c (List.forall_mem_cons.2 ⟨rfl, isAnswer_launches _⟩)
  have hlast : ∀ e ∈ [⟨.write p.cache.path p.cache.ordered.render, fault⟩],
      Event.isAnswer e = false := List.forall_mem_singleton.2 rfl
  have hrecorded :=
    (hrounds.recorded (steady_start batches limit).toTracks hstart).append hlast
  refine ⟨p, fault, by simpa [whole] using hrecorded, ?_, ?_⟩
  · rw [← hrecorded.marks.path, whole, ← List.append_assoc, ← List.cons_append]
    exact List.getLast?_concat
  · rw [length_launched, hsteady.waiting_eq]

theorem Recorded.faults_ending (h : Recorded batches c es p) (fault : Option String) :
    (p.ending (batches.drop (launched es).length) fault).outcome.faults =
      (after es).faults batches ++
        if (launched es).length < batches.length then [.aborted] else [] := by
  simp only [Progress.ending, List.isEmpty_iff, List.drop_eq_nil_iff]
  rw [h.faults]
  by_cases hall : batches.length ≤ (launched es).length
  · rw [if_pos hall, if_neg (Nat.not_lt.2 hall), List.append_nil]
  · rw [if_neg hall, if_pos (Nat.not_le.1 hall)]

theorem Recorded.ordered_eq (h : Recorded batches c es p) :
    p.cache.ordered = { c with items := p.cache.items.sorted } := by
  rw [Cache.ordered, ← h.marks.program, ← h.env, ← h.cacheName, ← h.marks.path]

/-! ## The schedule -/

/-- **The schedule of writing batches.** Whatever is answered, it comes to an end; the batches are
started in order and never too many at a time; each answer is followed by the next start, unless the
user wants to stop; and no batch that was started is left without an outcome. -/
theorem run_scheduled (payer machine : Address) (limit : Nat) (c : Cache) (batches : List Batch) :
    (∀ answers, ∃ es o, (run payer machine limit c batches).Runs es o ∧
      Script.AnsweredBy answers es) ∧
    ∀ es o, (run payer machine limit c batches).Runs es o →
      Scheduled payer machine limit batches es ∧
      ∃ ending : Ending, o = ending.result ∧
        ending.outcome.written = (after es).written batches ∧
        ending.outcome.faults = (after es).faults batches ++
          if (launched es).length < batches.length then [.aborted] else [] := by
  refine ⟨Script.exists_runs _, fun es o hrun => ?_⟩
  obtain ⟨ending, hall, rfl⟩ := run_runs_iff.1 hrun
  obtain ⟨p, fault, hrecorded, -, heq⟩ := runAll_recorded hall
  cases heq
  exact ⟨runAll_scheduled hall, _, rfl, hrecorded.written, hrecorded.faults_ending fault⟩

namespace Sample

def wallet : Address := Ledger.newKey 0

def target : Address := Ledger.newKey 1

/-- A record with three items that are not on the chain. -/
def cache : Cache where
  program := CacheProgram.ofMachine target
  items := Table.ofList [("0", ⟨"A", "x", false⟩), ("1", ⟨"B", "y", false⟩),
    ("2", ⟨"C", "z", false⟩)]
  env := "devnet"
  cacheName := "temp"
  path := "cache.json"

/-- A batch for each of the items. -/
def lines : List Batch := [[⟨0, "A", "x"⟩], [⟨1, "B", "y"⟩], [⟨2, "C", "z"⟩]]

/-- Answers by a plan: which one of the batches in flight is answered next and whether it is
accepted, and what the user wants whenever this is asked. -/
def answers (plan : List (Nat × Bool)) (wishes : List Bool) (before : List Event) :
    (r : Request) → r.Answer
  | .await n =>
    let (i, accepted) := plan.getD (before.countP Event.isAnswer) (0, true)
    (⟨i % (n + 1), Nat.mod_lt i n.succ_pos⟩,
      if accepted then .ok ⟨0⟩ else .error (.refused "refused"))
  | .interrupted => wishes.getD (stops before).length false
  | r => (Ledger.handle r Ledger.blank).1

/-- The transcript of writing the batches with answers by a plan. -/
def events (limit : Nat) (plan : List (Nat × Bool)) (wishes : List Bool) : List Event :=
  ((run wallet target limit cache lines).play (answers plan wishes) []).1

end Sample

/-- The second one of two batches in flight is refused, and the next one is started; after that the
user wants to stop, and no longer so when it is too late. -/
theorem run_scheduled_reordered :
    ∃ es o, (run Sample.wallet Sample.target 2 Sample.cache Sample.lines).Runs es o ∧
      Scheduled Sample.wallet Sample.target 2 Sample.lines es ∧
      (after es).answered.map (fun a => (a.1, a.2.isOk)) = [(1, false), (0, true), (2, true)] ∧
      stops es = [false, true, false] := by
  have hchecks :
      let es := Sample.events 2 [(1, false)] [false, true]
      (after es).answered.map (fun a => (a.1, a.2.isOk)) = [(1, false), (0, true), (2, true)] ∧
      stops es = [false, true, false] := by decide +kernel
  have hrun := Script.runs_play (Sample.answers [(1, false)] [false, true])
    (run Sample.wallet Sample.target 2 Sample.cache Sample.lines) []
  exact ⟨_, _, hrun, ((run_scheduled ..).2 _ _ hrun).1, hchecks⟩

/-! ## The order of the answers -/

/-- What comes of writing batches if the record can always be saved. -/
structure Settled (batches : List Batch) (c : Cache) (es : List Event) (c' : Cache)
    (outcome : Outcome) : Prop where
  kept : c' = { c with items := c'.items }
  /-- The items are the same, but those of the batches that are written are on the chain. -/
  items : ∀ key, c'.items.get? key = (c.items.get? key).map fun item =>
    { item with onChain := item.onChain || decide (∃ k ∈ (after es).done batches,
        ∃ l ∈ batches.getD k [], key = l.index.toNat.repr) }
  /-- The record has the order of its file. -/
  ordered : c'.ordered = c'
  file : es.getLast? = some ⟨.write c.path c'.render, none⟩
  /-- Every batch that was started was answered once. -/
  answered : ((after es).answered.map Prod.fst).Perm (List.range (launched es).length)
  written : outcome.written =
    ((after es).done batches).flatMap fun k => (batches.getD k []).map ConfigLine.index
  faults : outcome.faults = (after es).faults batches ++
    if (launched es).length < batches.length then [.aborted] else []
  /-- Every batch that was started is written or has a fault. -/
  count : ((after es).done batches).length + ((after es).faults batches).length =
    (launched es).length
  success : outcome.success = true ↔ ∀ k < batches.length, k ∈ (after es).done batches

theorem any_written (batches : List Batch) (v : Window) (key : String) :
    (((v.written batches).map UInt32.toNat).any fun i => decide (key = i.repr)) =
      decide (∃ k ∈ v.done batches, ∃ l ∈ batches.getD k [], key = l.index.toNat.repr) := by
  rw [Bool.eq_iff_iff]
  simp [Window.written, -List.getD_eq_getElem?_getD]

/-- Every batch is written exactly if all were started and none has a fault. -/
theorem done_eq_all_iff {v : Window} {n : Nat}
    (hperm : (v.answered.map Prod.fst).Perm (List.range n)) (hle : n ≤ batches.length) :
    (∀ k < batches.length, k ∈ v.done batches) ↔ v.faults batches = [] ∧ batches.length ≤ n := by
  have hsub : (v.done batches).Sublist (v.answered.map Prod.fst) := List.filter_sublist.map _
  have hcount := length_done_add_length_faults batches v
  have hlen : v.answered.length = n := by simpa using hperm.length_eq
  constructor
  · intro hall
    have hsubset : List.range batches.length ⊆ v.done batches := fun k hk =>
      hall k (List.mem_range.1 hk)
    have hdone := (List.subperm_of_subset List.nodup_range hsubset).length_le
    rw [List.length_range] at hdone
    refine ⟨List.length_eq_zero_iff.1 ?_, ?_⟩ <;> omega
  · rintro ⟨hnone, hn⟩ k hk
    rw [hnone, List.length_nil, Nat.add_zero, ← List.length_map Prod.fst] at hcount
    rw [hsub.eq_of_length hcount, hperm.mem_iff, List.mem_range]
    omega

theorem run_settles {o : Except Failure (Cache × Outcome)}
    (hrun : (run payer machine limit c batches).Runs es o) (hsaves : ∀ e ∈ es, e.saves) :
    ∃ c' outcome, o = .ok (c', outcome) ∧ Settled batches c es c' outcome := by
  obtain ⟨ending, hall, rfl⟩ := run_runs_iff.1 hrun
  obtain ⟨p, fault, hrecorded, hfile, heq⟩ := runAll_recorded hall
  have hscheduled := runAll_scheduled hall
  cases heq
  have hfault : fault = none := by
    have hlast := hsaves _ (List.mem_of_getLast? hfile)
    cases fault with
    | none => rfl
    | some reason => cases hlast
  subst hfault
  have hresult : (p.ending (batches.drop (launched es).length) none).result =
      .ok (p.cache.ordered,
        (p.ending (batches.drop (launched es).length) none).outcome) := by
    rw [Ending.result]
    simp [Progress.ending, hrecorded.saveFault hsaves]
  have hfaults := hrecorded.faults_ending none
  have hperm := hscheduled.answered.2
  have hle : (launched es).length ≤ batches.length := by
    simpa using hscheduled.inOrder.length_le
  refine ⟨_, _, hresult,
    { kept := ?_
      items := fun key => ?_
      ordered := ?_
      file := hfile
      answered := hperm
      written := hrecorded.written
      faults := hfaults
      count := ?_
      success := ?_ }⟩
  · exact hrecorded.ordered_eq
  · rw [hrecorded.marks.ordered.get? key]
    simp only [any_written]
  · exact Cache.ordered_ordered p.cache
  · rw [length_done_add_length_faults]
    simpa using hperm.length_eq
  · rw [done_eq_all_iff hperm hle, Outcome.success, hfaults, List.isEmpty_iff,
      List.append_eq_nil_iff]
    simp

/-- **The order of the answers does not matter** for the record: batches of which the same ones are
written leave the same record. -/
theorem Settled.cache_eq {es' : List Event} {c' c'' : Cache} {outcome outcome' : Outcome}
    (h : Settled batches c es c' outcome) (h' : Settled batches c es' c'' outcome')
    (hdone : ∀ k, k ∈ (after es).done batches ↔ k ∈ (after es').done batches) : c'' = c' := by
  have hget : ∀ key, c''.items.get? key = c'.items.get? key := fun key => by
    rw [h.items, h'.items]
    simp only [hdone]
  have hsorted : c''.items.sorted = c'.items.sorted := Table.sorted_congr hget
  have hitems : c''.items = c'.items :=
    calc c''.items = c''.ordered.items := by rw [h'.ordered]
      _ = c'.ordered.items := hsorted
      _ = c'.items := by rw [h.ordered]
  rw [h.kept, h'.kept, hitems]

/-- **What comes of writing batches** if the record can always be saved: what is on the chain
afterwards, what is reported, and when it is a success. Another run in which the same batches are
written, in any other order and with any other limit, leaves the same record and the same file and
reports the same success. -/
theorem run_settled (payer machine : Address) (limit : Nat) (c : Cache) (batches : List Batch)
    {es : List Event} {o : Except Failure (Cache × Outcome)}
    (hrun : (run payer machine limit c batches).Runs es o) (hsaves : ∀ e ∈ es, e.saves) :
    ∃ c' outcome, o = .ok (c', outcome) ∧ Settled batches c es c' outcome ∧
      ∀ limit' es' o', (run payer machine limit' c batches).Runs es' o' →
        (∀ e ∈ es', e.saves) →
        (∀ k, k ∈ (after es).done batches ↔ k ∈ (after es').done batches) →
        ∃ outcome', o' = .ok (c', outcome') ∧ outcome'.success = outcome.success ∧
          es'.getLast? = es.getLast? := by
  obtain ⟨c', outcome, rfl, hsettled⟩ := run_settles hrun hsaves
  refine ⟨c', outcome, rfl, hsettled, fun limit' es' o' hrun' hsaves' hdone => ?_⟩
  obtain ⟨c'', outcome', rfl, hsettled'⟩ := run_settles hrun' hsaves'
  obtain rfl := hsettled.cache_eq hsettled' hdone
  refine ⟨outcome', rfl, ?_, hsettled'.file.trans hsettled.file.symm⟩
  rw [Bool.eq_iff_iff, hsettled'.success, hsettled.success]
  simp only [hdone]

/-- Two runs in which the first batch is refused and the others are written in different orders. -/
theorem run_settled_reordered :
    ∃ es es' o o', (run Sample.wallet Sample.target 2 Sample.cache Sample.lines).Runs es o ∧
      (run Sample.wallet Sample.target 3 Sample.cache Sample.lines).Runs es' o' ∧
      (∀ e ∈ es, e.saves) ∧ (∀ e ∈ es', e.saves) ∧
      (after es).done Sample.lines = [1, 2] ∧ (after es').done Sample.lines = [2, 1] ∧
      ∃ c' outcome outcome', o = .ok (c', outcome) ∧ o' = .ok (c', outcome') ∧
        outcome.written = [1, 2] ∧ outcome'.success = outcome.success ∧
        es'.getLast? = es.getLast? := by
  have hchecks :
      let es := Sample.events 2 [(1, true), (0, false)] []
      let es' := Sample.events 3 [(2, true), (0, false)] []
      (∀ e ∈ es, e.saves) ∧ (∀ e ∈ es', e.saves) ∧
      (after es).done Sample.lines = [1, 2] ∧ (after es').done Sample.lines = [2, 1] := by
    decide +kernel
  have hrun := Script.runs_play (Sample.answers [(1, true), (0, false)] [])
    (run Sample.wallet Sample.target 2 Sample.cache Sample.lines) []
  have hrun' := Script.runs_play (Sample.answers [(2, true), (0, false)] [])
    (run Sample.wallet Sample.target 3 Sample.cache Sample.lines) []
  obtain ⟨hsaves, hsaves', hdone, hdone'⟩ := hchecks
  obtain ⟨c', outcome, ho, hsettled, hother⟩ := run_settled _ _ _ _ _ hrun hsaves
  have hsame : ∀ k, k ∈ (after (Sample.events 2 [(1, true), (0, false)] [])).done Sample.lines ↔
      k ∈ (after (Sample.events 3 [(2, true), (0, false)] [])).done Sample.lines := by
    rw [hdone, hdone']
    intro k
    simp [or_comm]
  obtain ⟨outcome', ho', hsuccess, hfile⟩ := hother _ _ _ hrun' hsaves' hsame
  have hwritten := hsettled.written.trans (congrArg _ hdone)
  exact ⟨_, _, _, _, hrun, hrun', hsaves, hsaves', hdone, hdone', c', outcome, outcome', ho, ho',
    hwritten, hsuccess, hfile⟩

end CandyDrop.Schedule
