import CandyDrop.Proofs.Upload.Schedule

/-!
# Writing batches in rounds

Once the first batches are started, the work goes on in rounds: one batch is answered, the answer is
recorded, the user is asked whether to stop, and perhaps one more batch is started. `Rounds` holds of
the transcripts of such rounds and of what they do to the progress. Waiting for batches is nothing
else (`drain_rounds`), and writing a list of batches is that between the first starts and a last save
(`runAll_rounds`). What is to be known of the order of the work is known of rounds.
-/

namespace CandyDrop

namespace Event

/-- A file is written, or was to be. -/
def isSave : Event → Bool
  | ⟨.write _ _, _⟩ => true
  | _ => false

/-- A batch is answered. -/
def isAnswer : Event → Bool
  | ⟨.await _, _⟩ => true
  | _ => false

end Event

namespace Schedule

variable {payer machine : Address} {p p' : Progress} {es : List Event} {batch b : Batch}
  {bs out waiting left : List Batch} {answer : Except ClusterFault Signature}

/-! ## Starting -/

/-- The event in which a batch is started. -/
def launchOf (payer machine : Address) (b : Batch) : Event :=
  ⟨.launch (Batch.transaction? payer machine b), ()⟩

theorem startAll_runs_iff {o : Except Failure Unit} :
    (startAll payer machine bs).Runs es o ↔ es = bs.map (launchOf payer machine) ∧ o = .ok () := by
  induction bs generalizing es with
  | nil => exact Script.runs_done_iff
  | cons b bs ih =>
    rw [startAll, runs_start_bind_iff]
    constructor
    · rintro ⟨es', rfl, h⟩
      obtain ⟨rfl, rfl⟩ := ih.1 h
      exact ⟨rfl, rfl⟩
    · rintro ⟨rfl, rfl⟩
      exact ⟨_, rfl, ih.2 ⟨rfl, rfl⟩⟩

/-- The batches that are started in a round: the next one, unless the user wants to stop. -/
def refill (stop : Bool) (waiting : List Batch) : List Batch := if stop then [] else waiting.take 1

theorem length_refill_le (stop : Bool) (waiting : List Batch) :
    (refill stop waiting).length ≤ 1 := by
  unfold refill
  split
  · exact Nat.zero_le 1
  · exact List.length_take_le 1 waiting

theorem refill_append_drop (stop : Bool) (waiting : List Batch) :
    refill stop waiting ++ waiting.drop (refill stop waiting).length = waiting := by
  cases stop with
  | true => rfl
  | false => cases waiting <;> rfl

/-! ## Recording -/

/-- Whether a batch that is answered like this is written. One without lines needs no transaction,
and so it is. -/
def isWritten (batch : Batch) (answer : Except ClusterFault Signature) : Bool :=
  batch.isEmpty || answer.isOk

/-- The positions that are written if a batch is answered like this. -/
def writtenLines (batch : Batch) (answer : Except ClusterFault Signature) : List UInt32 :=
  if isWritten batch answer then batch.map ConfigLine.index else []

/-- The fault that is noted if a batch is answered like this. -/
def fault? (batch : Batch) : Except ClusterFault Signature → Option BatchFault
  | .ok _ => none
  | .error fault => if batch.isEmpty then none else some (.cluster fault)

theorem isSome_fault? (batch : Batch) (answer : Except ClusterFault Signature) :
    (fault? batch answer).isSome = !isWritten batch answer := by
  cases answer with
  | ok signature => simp [isWritten, fault?, Except.isOk, Except.toBool]
  | error fault => cases batch <;> simp [isWritten, fault?, Except.isOk, Except.toBool]

/-- The record with the lines of a batch taken for written. -/
def marked (batch : Batch) (c : Cache) : Cache :=
  c.markWritten ((batch.map ConfigLine.index).map UInt32.toNat)

/-- The progress after a batch was written and the record saved, unless there was a fault. -/
def finished (batch : Batch) (fault : Option String) (p : Progress) : Progress where
  cache := if fault.isNone then (marked batch p.cache).ordered else marked batch p.cache
  written := p.written ++ batch.map ConfigLine.index
  faults := p.faults
  saveFault := p.saveFault.or fault

/-- The progress after a batch was refused. -/
def refused (fault : ClusterFault) (p : Progress) : Progress :=
  { p with faults := p.faults ++ [.cluster fault] }

theorem trySave_runs_iff {c : Cache} {o : Except Failure (Cache × Option String)} :
    c.trySave.Runs es o ↔ ∃ fault, es = [⟨.write c.path c.ordered.render, fault⟩] ∧
      o = .ok (if fault.isNone then c.ordered else c, fault) := by
  refine Script.runs_ask_iff.trans ⟨?_, ?_⟩
  · rintro ⟨fault, es', rfl, h⟩
    cases fault <;> obtain ⟨rfl, rfl⟩ := Script.runs_done_iff.1 h <;> exact ⟨_, rfl, rfl⟩
  · rintro ⟨fault, rfl, rfl⟩
    cases fault <;> exact ⟨_, [], rfl, .done _⟩

/-- **Recording an answer**: a batch that is written is marked and the record saved; one that is
refused is noted. -/
theorem record_runs_iff {o : Except Failure Progress} :
    (record batch answer p).Runs es o ↔
      (isWritten batch answer = true ∧ ∃ fault,
        es = [⟨.write p.cache.path (marked batch p.cache).ordered.render, fault⟩] ∧
          o = .ok (finished batch fault p)) ∨
      ∃ fault, isWritten batch answer = false ∧ answer = .error fault ∧ es = [] ∧
        o = .ok (refused fault p) := by
  by_cases hwritten : isWritten batch answer = true
  · have hdone : batch ≠ [] → ∃ signature, answer = .ok signature := by
      intro hne
      cases answer with
      | ok signature => exact ⟨signature, rfl⟩
      | error fault => simp [isWritten, Except.isOk, Except.toBool, hne] at hwritten
    rw [record_of_done hdone, Script.runs_bind_iff]
    simp only [trySave_runs_iff, Script.runs_done_iff, hwritten, true_and, Bool.true_eq_false,
      false_and, exists_false, or_false]
    constructor
    · rintro (⟨e, -, fault, -, h⟩ | ⟨_, _, _, rfl, ⟨fault, rfl, h⟩, rfl, rfl⟩)
      · cases h
      · cases h
        exact ⟨fault, rfl, rfl⟩
    · rintro ⟨fault, rfl, rfl⟩
      exact .inr ⟨_, _, [], rfl, ⟨fault, rfl, rfl⟩, rfl, rfl⟩
  · have hfalse : isWritten batch answer = false := Bool.eq_false_iff.2 hwritten
    cases batch with
    | nil => exact absurd rfl hwritten
    | cons l ls =>
      cases answer with
      | ok signature => exact absurd rfl hwritten
      | error fault =>
        refine Script.runs_done_iff.trans ?_
        simp [hfalse, refused]

theorem isSave_of_record {batch : Batch} {answer : Except ClusterFault Signature}
    {o : Except Failure Progress} (h : (record batch answer p).Runs es o) :
    ∀ e ∈ es, e.isSave := by
  rcases record_runs_iff.1 h with ⟨-, _, rfl, -⟩ | ⟨_, -, -, rfl, -⟩
  · simp [Event.isSave]
  · simp

/-- What an answer adds to the progress. -/
structure Adds (batch : Batch) (answer : Except ClusterFault Signature) (es : List Event)
    (p p' : Progress) : Prop where
  env : p'.cache.env = p.cache.env
  cacheName : p'.cache.cacheName = p.cache.cacheName
  marks : p.cache.Marks p'.cache ((writtenLines batch answer).map UInt32.toNat)
  written : p'.written = p.written ++ writtenLines batch answer
  faults : p'.faults = p.faults ++ (fault? batch answer).toList
  saveFault : (∀ e ∈ es, e.saves) → p'.saveFault = p.saveFault

theorem record_adds (h : (record batch answer p).Runs es (.ok p')) :
    Adds batch answer es p p' := by
  rcases record_runs_iff.1 h with ⟨hwritten, fault, rfl, heq⟩ | ⟨fault, hwritten, rfl, rfl, heq⟩
  · cases heq
    have hlines : writtenLines batch answer = batch.map ConfigLine.index := if_pos hwritten
    have hfault : fault? batch answer = none := by
      rw [← Option.not_isSome_iff_eq_none, isSome_fault?, hwritten]
      exact Bool.false_ne_true
    have hmarks := Cache.marks_markWritten p.cache ((batch.map ConfigLine.index).map UInt32.toNat)
    refine ⟨?_, ?_, ?_, ?_, ?_, fun hsaves => ?_⟩
    · cases fault <;> rfl
    · cases fault <;> rfl
    · rw [hlines]
      cases fault with
      | none => exact hmarks.ordered
      | some reason => exact hmarks
    · rw [hlines]
      rfl
    · rw [hfault]
      exact (List.append_nil _).symm
    · cases fault with
      | none => exact Option.or_none
      | some reason => exact nomatch hsaves _ List.mem_cons_self
  · cases heq
    have hlines : writtenLines batch (.error fault) = [] := if_neg (Bool.eq_false_iff.1 hwritten)
    have hfault : fault? batch (.error fault) = some (.cluster fault) := by
      cases batch with
      | nil => cases hwritten
      | cons l ls => rfl
    refine ⟨rfl, rfl, ?_, ?_, ?_, fun _ => rfl⟩
    · rw [hlines]
      exact .refl p.cache
    · rw [hlines]
      exact (List.append_nil _).symm
    · rw [hfault]
      rfl

/-! ## Rounds -/

theorem drain_cons :
    drain payer machine (b :: bs) waiting p =
      .ask (.await bs.length) fun (i, answer) =>
        record ((b :: bs).get i) answer p >>= fun p =>
          .ask .interrupted fun stop =>
            startAll payer machine (refill stop waiting) >>= fun _ =>
              drain payer machine (others b bs i ++ refill stop waiting)
                (waiting.drop (refill stop waiting).length) p := by
  rw [drain]
  refine congrArg (Script.ask _) (funext fun x => ?_)
  obtain ⟨i, answer⟩ := x
  refine congrArg (record _ answer p >>= ·) (funext fun p => ?_)
  refine congrArg (Script.ask _) (funext fun stop => ?_)
  cases stop with
  | true => simp [refill, startAll]
  | false =>
    cases waiting with
    | nil => simp [refill, startAll]
    | cons next later => rfl

/-- The transcripts of rounds, from the batches that are out and those that wait, with the progress
before and after and the batches that are left waiting when nothing is out. -/
inductive Rounds (payer machine : Address) :
    (out waiting : List Batch) → Progress → List Event → Progress → (left : List Batch) → Prop
  | nothing (waiting : List Batch) (p : Progress) : Rounds payer machine [] waiting p [] p waiting
  | round {b : Batch} {bs waiting left : List Batch} {p p₁ p' : Progress} {saves es : List Event}
      (i : Fin (bs.length + 1)) (answer : Except ClusterFault Signature) (stop : Bool)
      (hrecord : (record ((b :: bs).get i) answer p).Runs saves (.ok p₁))
      (hrest : Rounds payer machine (others b bs i ++ refill stop waiting)
        (waiting.drop (refill stop waiting).length) p₁ es p' left) :
      Rounds payer machine (b :: bs) waiting p
        (⟨.await bs.length, (i, answer)⟩ :: (saves ++ ⟨.interrupted, stop⟩ ::
          ((refill stop waiting).map (launchOf payer machine) ++ es))) p' left

/-- **Waiting for batches goes in rounds**, and does not fail. -/
theorem drain_rounds {o : Except Failure (Progress × List Batch)}
    (hrun : (drain payer machine out waiting p).Runs es o) :
    ∃ p' left, o = .ok (p', left) ∧ Rounds payer machine out waiting p es p' left := by
  induction out, waiting, p using drain.induct generalizing es with
  | case1 waiting p =>
    rw [drain] at hrun
    obtain ⟨rfl, rfl⟩ := Script.runs_done_iff.1 hrun
    exact ⟨p, waiting, rfl, .nothing waiting p⟩
  | case2 waiting p b bs ih =>
    rw [drain_cons] at hrun
    obtain ⟨⟨i, answer⟩, es₁, rfl, hanswered⟩ := Script.runs_ask_iff.1 hrun
    rcases Script.runs_bind_iff.1 hanswered with
      ⟨e, -, hrecord⟩ | ⟨p₁, saves, es₂, rfl, hrecord, hasks⟩
    · rcases record_runs_iff.1 hrecord with ⟨-, _, -, h⟩ | ⟨_, -, -, -, h⟩ <;> cases h
    obtain ⟨stop, es₃, rfl, hstarts⟩ := Script.runs_ask_iff.1 hasks
    rcases Script.runs_bind_iff.1 hstarts with ⟨e, -, hstart⟩ | ⟨_, es₄, es₅, rfl, hstart, hwait⟩
    · cases (startAll_runs_iff.1 hstart).2
    obtain ⟨rfl, -⟩ := startAll_runs_iff.1 hstart
    -- The hypothesis of the induction is about the batches as the code takes them.
    have hrest : ∃ p' left, o = .ok (p', left) ∧
        Rounds payer machine (others b bs i ++ refill stop waiting)
          (waiting.drop (refill stop waiting).length) p₁ es₅ p' left := by
      cases stop with
      | true =>
        rw [show refill true waiting = [] from rfl, List.append_nil] at hwait ⊢
        exact ih i p₁ true hwait
      | false =>
        cases waiting with
        | nil =>
          rw [show refill false [] = [] from rfl, List.append_nil] at hwait ⊢
          exact ih i p₁ false hwait
        | cons next later => exact ih i p₁ false hwait
    obtain ⟨p', left, ho, hrounds⟩ := hrest
    exact ⟨p', left, ho, .round i answer stop hrecord hrounds⟩

/-- The events of rounds begin with an answer. -/
theorem Rounds.isAnswer_of_head (h : Rounds payer machine out waiting p es p' left) :
    ∀ e ∈ es.head?, e.isAnswer := by
  cases h with
  | nothing => simp
  | round i answer stop hrecord hrest => simp [Event.isAnswer]

/-! ## The whole -/

/-- How writing batches ends after its rounds, with the fault of the last save if there was one. -/
def Progress.ending (p : Progress) (left : List Batch) (fault : Option String) : Ending where
  cache := if fault.isNone then p.cache.ordered else p.cache
  outcome := ⟨p.written, if left.isEmpty then p.faults else p.faults ++ [.aborted]⟩
  saveFault := fault.or p.saveFault

/-- What the user is told before the first batch is started. -/
def opening (batches : List Batch) : Event :=
  ⟨.say ("Sending config line(s) in " ++ batches.length.repr
    ++ " transaction(s): (Ctrl+C to abort)"), ()⟩

/-- The transcript of writing batches, with its rounds and the last save. -/
def whole (payer machine : Address) (limit : Nat) (batches : List Batch) (rounds : List Event)
    (save : Event) : List Event :=
  opening batches :: ((batches.take (effectiveLimit limit)).map (launchOf payer machine) ++
    (rounds ++ [save]))

/-- **Writing batches** starts as many as may be out, goes in rounds and then saves the record. -/
theorem runAll_rounds {limit : Nat} {c : Cache} {batches : List Batch} {o : Except Failure Ending}
    (hrun : (runAll payer machine limit c batches).Runs es o) :
    ∃ rounds p left fault,
      Rounds payer machine (batches.take (effectiveLimit limit))
        (batches.drop (effectiveLimit limit)) ⟨c, [], [], none⟩ rounds p left ∧
      es = whole payer machine limit batches rounds
        ⟨.write p.cache.path p.cache.ordered.render, fault⟩ ∧
      o = .ok (p.ending left fault) := by
  obtain ⟨es₁, rfl, hstarts⟩ := Script.runs_say_bind_iff.1 hrun
  rcases Script.runs_bind_iff.1 hstarts with ⟨e, -, hstart⟩ | ⟨_, _, es₂, rfl, hstart, hwait⟩
  · cases (startAll_runs_iff.1 hstart).2
  obtain ⟨rfl, -⟩ := startAll_runs_iff.1 hstart
  rcases Script.runs_bind_iff.1 hwait with ⟨e, -, hdrain⟩ | ⟨_, rounds, es₃, rfl, hdrain, hsaves⟩
  · obtain ⟨_, _, h, -⟩ := drain_rounds hdrain
    cases h
  obtain ⟨p, left, h, hrounds⟩ := drain_rounds hdrain
  cases h
  rcases Script.runs_bind_iff.1 hsaves with ⟨e, -, hsave⟩ | ⟨_, _, _, rfl, hsave, hend⟩
  · obtain ⟨_, -, h⟩ := trySave_runs_iff.1 hsave
    cases h
  obtain ⟨fault, rfl, h⟩ := trySave_runs_iff.1 hsave
  cases h
  obtain ⟨rfl, rfl⟩ := Script.runs_done_iff.1 hend
  exact ⟨rounds, p, left, fault, hrounds, by simp [whole, opening], rfl⟩

/-- What writing batches gives to the upload: a record that could not be saved is a failure. -/
def Ending.result (ending : Ending) : Except Failure (Cache × Outcome) :=
  match ending.saveFault with
  | some reason => .error (.unwritable reason)
  | none => .ok (ending.cache, ending.outcome)

theorem run_runs_iff {limit : Nat} {c : Cache} {batches : List Batch}
    {o : Except Failure (Cache × Outcome)} :
    (run payer machine limit c batches).Runs es o ↔
      ∃ ending, (runAll payer machine limit c batches).Runs es (.ok ending) ∧
        o = ending.result := by
  rw [run, Script.runs_bind_iff]
  constructor
  · rintro (⟨e, -, h⟩ | ⟨ending, es₁, es₂, rfl, h, hend⟩)
    · obtain ⟨_, _, _, _, -, -, ho⟩ := runAll_rounds h
      cases ho
    · refine ⟨ending, ?_⟩
      unfold Ending.result
      cases hfault : ending.saveFault with
      | none =>
        simp only [hfault, Script.pure_eq_done, Script.runs_done_iff] at hend
        obtain ⟨rfl, rfl⟩ := hend
        exact ⟨by simpa using h, rfl⟩
      | some reason =>
        simp only [hfault, Script.runs_fail_iff] at hend
        obtain ⟨rfl, rfl⟩ := hend
        exact ⟨by simpa using h, rfl⟩
  · rintro ⟨ending, h, rfl⟩
    refine .inr ⟨ending, es, [], by simp, h, ?_⟩
    unfold Ending.result
    cases ending.saveFault with
    | none => exact .done _
    | some reason => exact .fail _

end Schedule

end CandyDrop
