import CandyDrop.Proofs.Upload.Rounds
import Mathlib.Data.List.Induction

/-!
# The batches in flight

What became of batches can be read off a transcript (`Window.after`): how many were started, which
are in flight and how the others were answered, all by their numbers in the order of their starts.
In rounds the window is *steady*: it is never larger than the limit, and as long as the user does not
want to stop it is as large as it can be (`Steady.round`). From this it follows what every event of a
transcript has to be, given the events before it (`Fits`, `Rounds.every`), and how the work is
scheduled as a whole (`Scheduled`, `run_scheduled`).
-/

namespace CandyDrop

/-! ## Parts of a transcript -/

namespace Event

/-- What is sent, if a batch is started. -/
def launch? : Event → Option (Option Transaction)
  | ⟨.launch t, _⟩ => some t
  | _ => none

/-- What the user wants, if this is asked. -/
def stop? : Event → Option Bool
  | ⟨.interrupted, stop⟩ => some stop
  | _ => none

/-- Neither is a batch started nor one answered. -/
def IsOther (e : Event) : Prop := e.launch? = none ∧ e.isAnswer = false

theorem IsOther.of_isSave {e : Event} (h : e.isSave = true) : e.IsOther := by
  obtain ⟨r, a⟩ := e
  cases r with
  | write path text => exact ⟨rfl, rfl⟩
  | _ => cases h

end Event

/-- What was sent with the batches that were started. -/
def launched (es : List Event) : List (Option Transaction) := es.filterMap Event.launch?

/-- What the user wanted whenever this was asked. -/
def stops (es : List Event) : List Bool := es.filterMap Event.stop?

section Every

variable {P : List Event → Event → List Event → Prop} {before es fs gs later : List Event}
  {e : Event}

/-- Every event of a part of a transcript fits what was before it and what comes after it. -/
def Every (P : List Event → Event → List Event → Prop) : (before es later : List Event) → Prop
  | _, [], _ => True
  | before, e :: es, later => P before e (es ++ later) ∧ Every P (before ++ [e]) es later

theorem every_append :
    Every P before (es ++ fs) later ↔
      Every P before es (fs ++ later) ∧ Every P (before ++ es) fs later := by
  induction es generalizing before with
  | nil => simp [Every]
  | cons e es ih => simp [Every, ih, and_assoc]

theorem Every.of_split (h : Every P [] es []) (hes : es = fs ++ e :: gs) : P fs e gs := by
  subst hes
  have hgs := (every_append.1 h).2.1
  rwa [List.nil_append, List.append_nil] at hgs

end Every

/-- What holds of no events and of one event more holds of every first part of a transcript. -/
theorem prefix_induction {P : List Event → Prop} {es : List Event} (nil : P [])
    (snoc : ∀ fs e gs, es = fs ++ e :: gs → P fs → P (fs ++ [e])) : ∀ fs, fs <+: es → P fs := by
  intro fs
  induction fs using List.reverseRecOn with
  | nil => exact fun _ => nil
  | append_singleton fs e ih =>
    rintro ⟨gs, rfl⟩
    exact snoc fs e gs (by simp) (ih ⟨e :: gs, by simp⟩)

namespace Schedule

/-- What became of batches, by their numbers in the order of their starts. -/
structure Window where
  started : Nat
  /-- Those in flight, in the order of their starts. -/
  out : List Nat
  /-- Those that were answered, in the order of the answers. -/
  answered : List (Nat × Except ClusterFault Signature)

namespace Window

variable {v : Window} {e : Event} {es fs : List Event}

/-- The window after an event. -/
def step (v : Window) : Event → Window
  | ⟨.launch _, _⟩ => { v with started := v.started + 1, out := v.out ++ [v.started] }
  | ⟨.await _, (i, answer)⟩ =>
    { v with
      out := v.out.eraseIdx i
      answered := v.answered ++ (v.out[i.val]?).toList.map fun k => (k, answer) }
  | _ => v

/-- The window after a transcript. -/
def after (es : List Event) : Window := es.foldl step ⟨0, [], []⟩

@[simp] theorem after_concat (es : List Event) (e : Event) :
    after (es ++ [e]) = (after es).step e := by
  rw [after, List.foldl_append]
  rfl

theorem step_of_isOther (h : e.IsOther) : v.step e = v := by
  obtain ⟨r, a⟩ := e
  cases r with
  | launch t => cases h.1
  | await n => cases h.2
  | _ => rfl

theorem after_append_of_isOther (h : ∀ e ∈ fs, e.IsOther) : after (es ++ fs) = after es := by
  induction fs using List.reverseRecOn with
  | nil => rw [List.append_nil]
  | append_singleton fs e ih =>
    rw [← List.append_assoc, after_concat, step_of_isOther (h e (by simp))]
    exact ih fun e he => h e (by simp [he])

theorem length_launched (es : List Event) : (launched es).length = (after es).started := by
  induction es using List.reverseRecOn with
  | nil => rfl
  | append_singleton es e ih =>
    obtain ⟨r, a⟩ := e
    rw [launched, List.filterMap_append, List.length_append, ← launched, ih, after_concat]
    cases r <;> rfl

/-- **No batch that was started is lost**: it is in flight or it was answered, and only once. -/
theorem perm_after (es : List Event) :
    ((after es).answered.map Prod.fst ++ (after es).out).Perm (List.range (after es).started) := by
  induction es using List.reverseRecOn with
  | nil => exact .refl _
  | append_singleton es e ih =>
    rw [after_concat]
    generalize after es = v at ih
    obtain ⟨r, a⟩ := e
    cases r with
    | launch t =>
      simp only [step, List.range_succ, ← List.append_assoc]
      exact ih.append_right _
    | await n =>
      obtain ⟨i, answer⟩ := a
      by_cases hi : i.val < v.out.length
      · have hout : (v.out[i.val] :: v.out.eraseIdx i).Perm v.out :=
          List.getElem_cons_eraseIdx_perm hi
        simp only [step, List.getElem?_eq_getElem hi, Option.toList_some, List.map_append,
          List.map_cons, List.map_nil, List.append_assoc, List.singleton_append]
        exact (hout.append_left _).trans ih
      · have hnone : v.out[i.val]? = none := List.getElem?_eq_none (Nat.le_of_not_lt hi)
        simpa only [step, hnone, Option.toList_none, List.map_nil, List.append_nil,
          List.eraseIdx_of_length_le (Nat.le_of_not_lt hi)] using ih
    | _ => exact ih

theorem length_answered_add_length_out (es : List Event) :
    (after es).answered.length + (after es).out.length = (after es).started := by
  simpa using (perm_after es).length_eq

end Window

open Window

variable {payer machine : Address} {limit : Nat} {batches : List Batch} {p p' : Progress}
  {before es later : List Event} {b : Batch} {bs out waiting next left : List Batch}

/-! ## The window and the batches -/

/-- The window after a part of a transcript is about these batches. -/
structure Tracks (batches : List Batch) (before : List Event) (out waiting : List Batch) :
    Prop where
  out_eq : (after before).out.map (batches[·]?) = out.map some
  waiting_eq : batches.drop (after before).started = waiting
  started_le : (after before).started ≤ batches.length

theorem Tracks.length_out (h : Tracks batches before out waiting) :
    (after before).out.length = out.length := by
  simpa using congrArg List.length h.out_eq

/-- Every batch was answered, is in flight or waits. -/
theorem Tracks.count (h : Tracks batches before out waiting) :
    (after before).answered.length + out.length + waiting.length = batches.length := by
  have hstarted := length_answered_add_length_out before
  have hwaiting := congrArg List.length h.waiting_eq
  have hle := h.started_le
  rw [h.length_out] at hstarted
  rw [List.length_drop] at hwaiting
  omega

theorem Tracks.of_isOther (h : Tracks batches before out waiting)
    (hes : ∀ e ∈ es, e.IsOther) : Tracks batches (before ++ es) out waiting where
  out_eq := by rw [after_append_of_isOther hes, h.out_eq]
  waiting_eq := by rw [after_append_of_isOther hes, h.waiting_eq]
  started_le := by rw [after_append_of_isOther hes]; exact h.started_le

/-- The next batch is started. -/
theorem Tracks.launch (h : Tracks batches before out (b :: waiting)) :
    Tracks batches (before ++ [launchOf payer machine b]) (out ++ [b]) waiting := by
  have hlt : (after before).started < batches.length := by
    rw [← Nat.sub_pos_iff_lt, ← List.length_drop, h.waiting_eq]
    exact Nat.zero_lt_succ _
  have hdrop := List.drop_eq_getElem_cons hlt
  rw [h.waiting_eq, List.cons.injEq] at hdrop
  rw [launchOf]
  refine ⟨?_, ?_, ?_⟩
  · simp [step, h.out_eq, List.getElem?_eq_getElem hlt, hdrop.1]
  · simp [step, hdrop.2]
  · simpa [step] using Nat.succ_le_of_lt hlt

/-- Batches are started one after another. -/
theorem Tracks.launches (h : Tracks batches before out (next ++ waiting))
    (payer machine : Address) :
    Tracks batches (before ++ next.map (launchOf payer machine)) (out ++ next) waiting := by
  induction next generalizing before out with
  | nil => simpa using h
  | cons b next ih => simpa using ih h.launch

/-- A batch is answered. -/
theorem Tracks.answer (h : Tracks batches before (b :: bs) waiting) (i : Fin (bs.length + 1))
    (answer : Except ClusterFault Signature) :
    Tracks batches (before ++ [⟨.await bs.length, (i, answer)⟩]) (others b bs i) waiting := by
  refine ⟨?_, ?_, ?_⟩
  · simp [step, map_eraseIdx, h.out_eq, others]
  · simpa [step] using h.waiting_eq
  · simpa [step] using h.started_le

/-- The answer is that of the batch with this number. -/
theorem Tracks.answered (h : Tracks batches before (b :: bs) waiting) (i : Fin (bs.length + 1))
    (answer : Except ClusterFault Signature) :
    ∃ k, batches[k]? = some ((b :: bs).get i) ∧
      (after (before ++ [⟨.await bs.length, (i, answer)⟩])).answered =
        (after before).answered ++ [(k, answer)] := by
  have hi : i.val < (after before).out.length := by
    rw [h.length_out]
    exact i.isLt
  refine ⟨(after before).out[i.val], ?_, by simp [step, hi]⟩
  have hget := congrArg (·[i.val]?) h.out_eq
  simpa only [List.getElem?_map, List.getElem?_eq_getElem hi,
    List.getElem?_eq_getElem (l := b :: bs) i.isLt, Option.map_some, Option.some.injEq,
    List.get_eq_getElem] using hget

/-! ## Rounds are steady -/

/-- Between rounds the window is not larger than the limit, and if the user never wanted to stop, it
is as large as the limit and the batches allow. -/
structure Steady (limit : Nat) (batches : List Batch) (before : List Event)
    (out waiting : List Batch) : Prop extends Tracks batches before out waiting where
  bounded : out.length ≤ effectiveLimit limit
  full : (∀ e ∈ before, e.letsGoOn) → (after before).out.length =
    min (effectiveLimit limit) (batches.length - (after before).answered.length)

theorem Steady.of_isOther (h : Steady limit batches before out waiting)
    (hes : ∀ e ∈ es, e.IsOther) : Steady limit batches (before ++ es) out waiting where
  toTracks := h.toTracks.of_isOther hes
  bounded := h.bounded
  full := fun hgo => by
    rw [after_append_of_isOther hes]
    exact h.full fun e he => hgo e (List.mem_append_left _ he)

/-- The events of a round up to the next start. -/
def answering (n : Nat) (i : Fin (n + 1)) (answer : Except ClusterFault Signature)
    (saves : List Event) (stop : Bool) : List Event :=
  ⟨.await n, (i, answer)⟩ :: (saves ++ [⟨.interrupted, stop⟩])

theorem answering_append (n : Nat) (i : Fin (n + 1)) (answer : Except ClusterFault Signature)
    (saves : List Event) (stop : Bool) (es : List Event) :
    answering n i answer saves stop ++ es =
      ⟨.await n, (i, answer)⟩ :: (saves ++ ⟨.interrupted, stop⟩ :: es) := by
  simp [answering]

theorem isOther_saves_append {saves : List Event} (h : ∀ e ∈ saves, e.isSave) (stop : Bool) :
    ∀ e ∈ saves ++ [⟨.interrupted, stop⟩], e.IsOther := by
  intro e he
  rcases List.mem_append.1 he with he | he
  · exact .of_isSave (h e he)
  · rw [List.mem_singleton.1 he]
    exact ⟨rfl, rfl⟩

theorem Tracks.after_answering (h : Tracks batches before (b :: bs) waiting) (i : Fin (bs.length + 1))
    (answer : Except ClusterFault Signature) {saves : List Event} (hsaves : ∀ e ∈ saves, e.isSave)
    (stop : Bool) :
    Tracks batches (before ++ answering bs.length i answer saves stop) (others b bs i) waiting := by
  have := (h.answer i answer).of_isOther (isOther_saves_append hsaves stop)
  simpa [answering] using this

/-- After a round the window is about the batches that are then in flight. -/
theorem Tracks.round (h : Tracks batches before (b :: bs) waiting) (payer machine : Address)
    (i : Fin (bs.length + 1)) (answer : Except ClusterFault Signature) {saves : List Event}
    (hsaves : ∀ e ∈ saves, e.isSave) (stop : Bool) :
    Tracks batches
      (before ++ (answering bs.length i answer saves stop ++
        (refill stop waiting).map (launchOf payer machine)))
      (others b bs i ++ refill stop waiting)
      (waiting.drop (refill stop waiting).length) := by
  have hanswering := h.after_answering i answer hsaves stop
  rw [← refill_append_drop stop waiting] at hanswering
  rw [← List.append_assoc]
  exact hanswering.launches payer machine

/-- **A round keeps the window steady.** -/
theorem Steady.round (h : Steady limit batches before (b :: bs) waiting) (payer machine : Address)
    (i : Fin (bs.length + 1)) (answer : Except ClusterFault Signature) {saves : List Event}
    (hsaves : ∀ e ∈ saves, e.isSave) (stop : Bool) :
    Steady limit batches
      (before ++ (answering bs.length i answer saves stop ++
        (refill stop waiting).map (launchOf payer machine)))
      (others b bs i ++ refill stop waiting)
      (waiting.drop (refill stop waiting).length) := by
  have htracks := h.toTracks.round payer machine i answer hsaves stop
  have hbounded := h.bounded
  have hle := length_refill_le stop waiting
  rw [List.length_cons] at hbounded
  refine { htracks with bounded := ?_, full := fun hgo => ?_ }
  · rw [List.length_append, length_others]
    omega
  · have hfull := h.full fun e he => hgo e (List.mem_append_left _ he)
    have hstop : stop = false := by
      cases stop with
      | false => rfl
      | true => exact nomatch hgo ⟨.interrupted, true⟩ (by simp [answering])
    subst hstop
    have hcount := h.toTracks.count
    have hcount' := htracks.count
    rw [htracks.length_out]
    rw [h.toTracks.length_out] at hfull
    simp only [refill, Bool.false_eq_true, if_false, List.length_append, length_others,
      List.length_take, List.length_drop, List.length_cons] at *
    omega

/-! ## What every event has to be -/

/-- What comes after an answer: perhaps the record is saved, the user is asked, and the next one of
the batches that wait is started unless the user wants to stop. After this the next batch is
answered, or the record is saved for the last time. -/
def Refilled (payer machine : Address) (waiting : List Batch) (later : List Event) : Prop :=
  ∃ saves stop rest,
    later = saves ++ ⟨.interrupted, stop⟩ ::
      ((refill stop waiting).map (launchOf payer machine) ++ rest) ∧
    (∀ e ∈ saves, e.isSave) ∧ ((∃ e ∈ rest.head?, e.isAnswer) ∨ ∃ e, rest = [e] ∧ e.isSave)

/-- What an event has to be after what was before it. A batch is started only if it is the next
one, there is room for it and the user did not want to stop when this was asked last. When a batch is
answered, all that are in flight are waited for. -/
def Fits (payer machine : Address) (limit : Nat) (batches : List Batch) (before : List Event) :
    Event → (later : List Event) → Prop
  | ⟨.launch t, _⟩, _ =>
    (batches.map (Batch.transaction? payer machine))[(after before).started]? = some t ∧
      (after before).out.length < effectiveLimit limit ∧ (stops before).getLast? ≠ some true
  | ⟨.await n, _⟩, later =>
    (after before).out.length = n + 1 ∧
      ((∀ e ∈ before, e.letsGoOn) → (after before).out.length =
        min (effectiveLimit limit) (batches.length - (after before).answered.length)) ∧
      Refilled payer machine (batches.drop (after before).started) later
  | _, _ => True

theorem every_of_isOther (h : ∀ e ∈ es, e.IsOther) :
    Every (Fits payer machine limit batches) before es later := by
  induction es generalizing before with
  | nil => trivial
  | cons e es ih =>
    refine ⟨?_, ih fun e he => h e (List.mem_cons_of_mem _ he)⟩
    obtain ⟨r, a⟩ := e
    cases r with
    | launch t => cases (h _ List.mem_cons_self).1
    | await n => cases (h _ List.mem_cons_self).2
    | _ => trivial

theorem Tracks.every_launches (h : Tracks batches before out (next ++ waiting))
    (hroom : out.length + next.length ≤ effectiveLimit limit)
    (hstop : next ≠ [] → (stops before).getLast? ≠ some true) :
    Every (Fits payer machine limit batches) before (next.map (launchOf payer machine)) later := by
  induction next generalizing before out with
  | nil => trivial
  | cons b next ih =>
    rw [List.length_cons] at hroom
    refine ⟨⟨?_, ?_, hstop (by simp)⟩, ih h.launch ?_ fun _ => ?_⟩
    · rw [List.getElem?_map, ← List.head?_drop, h.waiting_eq]
      rfl
    · rw [h.length_out]
      omega
    · rw [List.length_append, List.length_singleton]
      omega
    · have heq : stops (before ++ [launchOf payer machine b]) = stops before := by
        simp [stops, launchOf, Event.stop?]
      rw [heq]
      exact hstop (by simp)

theorem getLast?_stops_answering (before : List Event) (n : Nat) (i : Fin (n + 1))
    (answer : Except ClusterFault Signature) (saves : List Event) (stop : Bool) :
    (stops (before ++ answering n i answer saves stop)).getLast? = some stop := by
  have hsplit : before ++ answering n i answer saves stop =
      (before ++ ⟨.await n, (i, answer)⟩ :: saves) ++ [⟨.interrupted, stop⟩] := by
    simp [answering]
  rw [hsplit, stops, List.filterMap_append]
  exact List.getLast?_concat

/-- **Every event of rounds fits**, and the window is steady when they are over. -/
theorem Rounds.every (h : Rounds payer machine out waiting p es p' left)
    (hsteady : Steady limit batches before out waiting)
    (hlater : ∃ e, later = [e] ∧ e.isSave) :
    Every (Fits payer machine limit batches) before es later ∧
      Steady limit batches (before ++ es) [] left := by
  induction h generalizing before with
  | nothing waiting p => exact ⟨trivial, by simpa using hsteady⟩
  | @round b bs waiting left p p₁ p' saves es i answer stop hrecord hrest ih =>
    have hsaves := isSave_of_record hrecord
    have hround := hsteady.round payer machine i answer hsaves stop
    obtain ⟨hevery, hend⟩ := ih hround
    have hroom : bs.length + (refill stop waiting).length ≤ effectiveLimit limit := by
      simpa using hround.bounded
    have hanswering := hsteady.toTracks.after_answering i answer hsaves stop
    rw [← refill_append_drop stop waiting] at hanswering
    rw [← answering_append, ← List.append_assoc]
    refine ⟨?_, by simpa using hend⟩
    rw [every_append, every_append]
    refine ⟨⟨⟨⟨?_, hsteady.full, ?_⟩, every_of_isOther (isOther_saves_append hsaves stop)⟩,
      hanswering.every_launches (by simpa using hroom) ?_⟩, hevery⟩
    · rw [hsteady.length_out, List.length_cons]
    · rw [hsteady.waiting_eq]
      refine ⟨saves, stop, es ++ later, by simp, hsaves, ?_⟩
      cases es with
      | nil => exact .inr hlater
      | cons e es => exact .inl ⟨e, rfl, hrest.isAnswer_of_head e rfl⟩
    · intro hne
      cases stop with
      | true => exact absurd rfl hne
      | false => simp [getLast?_stops_answering]

/-! ## The whole -/

theorem tracks_opening (batches : List Batch) (limit : Nat) :
    Tracks batches [opening batches] []
      (batches.take (effectiveLimit limit) ++ batches.drop (effectiveLimit limit)) :=
  ⟨rfl, (List.take_append_drop _ _).symm, Nat.zero_le _⟩

/-- Once the first batches are started, the window is steady. -/
theorem steady_start (batches : List Batch) (limit : Nat) :
    Steady limit batches ([opening batches] ++
        (batches.take (effectiveLimit limit)).map (launchOf payer machine))
      (batches.take (effectiveLimit limit)) (batches.drop (effectiveLimit limit)) := by
  have htracks := (tracks_opening batches limit).launches payer machine
  refine { htracks with bounded := List.length_take_le _ _, full := fun _ => ?_ }
  have hcount := htracks.count
  rw [htracks.length_out]
  simp only [List.nil_append, List.length_take, List.length_drop] at hcount ⊢
  omega

/-- **Every event of writing batches fits**, and the window is steady in the end. -/
theorem Rounds.every_whole {rounds : List Event}
    (h : Rounds payer machine (batches.take (effectiveLimit limit))
      (batches.drop (effectiveLimit limit)) p rounds p' left) {save : Event}
    (hsave : save.isSave = true) :
    Every (Fits payer machine limit batches) [] (whole payer machine limit batches rounds save) [] ∧
      Steady limit batches (whole payer machine limit batches rounds save) [] left := by
  obtain ⟨hevery, hsteady⟩ := h.every (steady_start batches limit) ⟨save, rfl, hsave⟩
  have hother : ∀ e ∈ [save], e.IsOther := by
    simpa using Event.IsOther.of_isSave hsave
  have hopening : ∀ e ∈ [opening batches], e.IsOther := by
    simp [opening, Event.IsOther, Event.launch?, Event.isAnswer]
  refine ⟨?_, by simpa [whole] using hsteady.of_isOther hother⟩
  rw [whole, ← List.singleton_append, every_append, every_append, every_append]
  refine ⟨every_of_isOther hopening, (tracks_opening batches limit).every_launches ?_ fun _ => ?_,
    by simpa using hevery, every_of_isOther hother⟩
  · rw [List.length_nil, Nat.zero_add]
    exact List.length_take_le _ batches
  · simp [stops, opening, Event.stop?]

/-- How the work on batches is scheduled in a transcript. -/
structure Scheduled (payer machine : Address) (limit : Nat) (batches : List Batch)
    (es : List Event) : Prop where
  /-- Never are more batches in flight than the limit allows. -/
  bounded : ∀ fs, fs <+: es → (after fs).out.length ≤ effectiveLimit limit
  /-- The batches that are started are the first ones, in their order and each of them once. -/
  inOrder : launched es <+: batches.map (Batch.transaction? payer machine)
  /-- Whatever is in flight is waited for. -/
  waitsForAll : ∀ fs n a gs, es = fs ++ ⟨.await n, a⟩ :: gs → (after fs).out.length = n + 1
  /-- In the end nothing is in flight, and every batch that was started was answered once. -/
  answered : (after es).out = [] ∧
    ((after es).answered.map Prod.fst).Perm (List.range (launched es).length)
  /-- After an answer the next batch is started if there is one, unless the user wants to stop. -/
  refilled : ∀ fs n a gs, es = fs ++ ⟨.await n, a⟩ :: gs →
    Refilled payer machine (batches.drop (launched fs).length) gs
  /-- As long as the user does not want to stop, the window is full. -/
  full : ∀ fs n a gs, es = fs ++ ⟨.await n, a⟩ :: gs → (∀ e ∈ fs, e.letsGoOn) →
    (after fs).out.length =
      min (effectiveLimit limit) (batches.length - (after fs).answered.length)
  /-- Nothing is started after the user wanted to stop, unless this is asked again and no longer
  so. -/
  heeded : ∀ fs t gs, es = fs ++ ⟨.launch t, ()⟩ :: gs → (stops fs).getLast? ≠ some true
  /-- As many batches are answered as were started. -/
  ends : es.countP Event.isAnswer = (launched es).length
  /-- If the user never wants to stop, every batch is started. -/
  complete : (∀ e ∈ es, e.letsGoOn) → launched es = batches.map (Batch.transaction? payer machine)

section

variable (h : Every (Fits payer machine limit batches) [] es [])
include h

theorem length_out_le_of_every :
    ∀ fs, fs <+: es → (after fs).out.length ≤ effectiveLimit limit := by
  refine prefix_induction (Nat.zero_le _) fun fs e gs hes ih => ?_
  have hfits := h.of_split hes
  rw [after_concat]
  obtain ⟨r, a⟩ := e
  cases r with
  | launch t => simpa [step] using Nat.succ_le_of_lt hfits.2.1
  | await n => exact Nat.le_trans (List.length_eraseIdx_le _ _) ih
  | _ => exact ih

theorem launched_of_every : ∀ fs, fs <+: es →
    launched fs = (batches.map (Batch.transaction? payer machine)).take (after fs).started := by
  refine prefix_induction rfl fun fs e gs hes ih => ?_
  have hfits := h.of_split hes
  rw [after_concat, launched, List.filterMap_append, ← launched, ih]
  obtain ⟨r, a⟩ := e
  cases r with
  | launch t =>
    simp only [step, List.take_add_one, hfits.1]
    rfl
  | _ => exact List.append_nil _

theorem countP_isAnswer_of_every : ∀ fs, fs <+: es →
    fs.countP Event.isAnswer = (after fs).answered.length := by
  refine prefix_induction rfl fun fs e gs hes ih => ?_
  have hfits := h.of_split hes
  rw [after_concat, List.countP_append, ih]
  obtain ⟨r, a⟩ := e
  cases r with
  | await n =>
    obtain ⟨i, answer⟩ := a
    have hi : i.val < (after fs).out.length := by
      rw [hfits.1]
      exact i.isLt
    simp [step, hi, Event.isAnswer]
  | _ => rfl

end

/-- **How batches are scheduled.** -/
theorem runAll_scheduled {c : Cache} {o : Except Failure Ending}
    (hrun : (runAll payer machine limit c batches).Runs es o) :
    Scheduled payer machine limit batches es := by
  obtain ⟨rounds, p, left, fault, hrounds, rfl, -⟩ := runAll_rounds hrun
  have hsave : Event.isSave ⟨.write p.cache.path p.cache.ordered.render, fault⟩ = true := rfl
  obtain ⟨hevery, hsteady⟩ := hrounds.every_whole hsave
  generalize whole payer machine limit batches rounds _ = es at hevery hsteady ⊢
  have hlaunched := launched_of_every hevery es (List.prefix_refl es)
  have hout : (after es).out = [] := by
    rw [← List.length_eq_zero_iff, hsteady.length_out]
    rfl
  have hperm := perm_after es
  rw [hout, List.append_nil, ← length_launched] at hperm
  refine
    { bounded := length_out_le_of_every hevery
      inOrder := hlaunched ▸ List.take_prefix _ _
      waitsForAll := fun fs n a gs hes => (hevery.of_split hes).1
      answered := ⟨hout, hperm⟩
      refilled := fun fs n a gs hes => by
        rw [length_launched]
        exact (hevery.of_split hes).2.2
      full := fun fs n a gs hes => (hevery.of_split hes).2.1
      heeded := fun fs t gs hes => (hevery.of_split hes).2.2
      ends := ?_
      complete := fun hgo => ?_ }
  · rw [countP_isAnswer_of_every hevery es (List.prefix_refl es)]
    simpa using hperm.length_eq
  · have hfull := hsteady.full hgo
    have hlimit := effectiveLimit_pos limit
    have hcount := hsteady.count
    rw [hsteady.length_out] at hfull
    have hall : batches.length ≤ (after es).started := by
      rw [← List.drop_eq_nil_iff, hsteady.waiting_eq, ← List.length_eq_zero_iff]
      rw [List.length_nil] at hfull hcount
      omega
    rw [hlaunched, List.take_of_length_le (by simpa using hall)]

end Schedule

end CandyDrop
