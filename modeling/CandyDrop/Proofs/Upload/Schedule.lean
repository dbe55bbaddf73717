import CandyDrop.Proofs.Cache.Marks
import CandyDrop.Proofs.Cluster.World
import CandyDrop.Proofs.Upload.Batches
import CandyDrop.Upload.Schedule
import Mathlib.Data.List.Perm.Basic

/-!
# What writing batches comes to

Batches are answered in any order and with any outcome, and the record is saved in between. What
this comes to is the same for every order: `Advance` says what a part of the work did to the world
and to the progress, in terms of the batches that were started, done and failed in it. One outcome
(`record_runs`) and one start (`Advance.launch`) are such parts, parts can be put together
(`Advance.trans`), and so is the whole (`drain_runs`). `Written` is what remains of this when all
is over (`run_runs`).
-/

namespace CandyDrop.Schedule

variable {payer machine : Address} {path : String} {w w' w₁ : World} {p p' p₁ : Progress}
  {es es₁ es₂ : List Event} {started started₁ started₂ done done₁ done₂ failed failed₁
  failed₂ : List Batch}

/-- The positions of the lines of batches. -/
def positions (batches : List Batch) : List Nat := batches.flatten.map fun l => l.index.toNat

theorem positions_append (bs cs : List Batch) :
    positions (bs ++ cs) = positions bs ++ positions cs := by
  simp [positions]

/-- What a part of the work does, in which some batches were started, some done and some failed. -/
structure Advance (payer machine : Address) (w : World) (p : Progress) (es : List Event)
    (w' : World) (p' : Progress) (started done failed : List Batch) : Prop where
  sent : w'.sent = w.sent ++ Batch.transactions payer machine started
  accepted : w'.accepted = w.accepted ++ Batch.transactions payer machine done
  marks : p.cache.Marks p'.cache (positions done)
  written : p'.written = p.written ++ done.flatten.map ConfigLine.index
  faults : p'.faults.length = p.faults.length + failed.length
  /-- If every write succeeds, no fault is noted. -/
  saves : (∀ e ∈ es, e.saves) → p'.saveFault = p.saveFault
  /-- A fault that is noted stays. -/
  saveFault : p'.saveFault = none → p.saveFault = none

/-- Nothing happens to the batches. -/
theorem Advance.refl (w : World) (p : Progress) (es : List Event) :
    Advance payer machine w p es w p [] [] [] where
  sent := by simp [Batch.transactions]
  accepted := by simp [Batch.transactions]
  marks := .refl p.cache
  written := by simp
  faults := rfl
  saves := fun _ => rfl
  saveFault := id

/-- Parts of the work one after the other. -/
theorem Advance.trans (h₁ : Advance payer machine w p es₁ w₁ p₁ started₁ done₁ failed₁)
    (h₂ : Advance payer machine w₁ p₁ es₂ w' p' started₂ done₂ failed₂) :
    Advance payer machine w p (es₁ ++ es₂) w' p' (started₁ ++ started₂) (done₁ ++ done₂)
      (failed₁ ++ failed₂) where
  sent := by rw [h₂.sent, h₁.sent, Batch.transactions_append, List.append_assoc]
  accepted := by rw [h₂.accepted, h₁.accepted, Batch.transactions_append, List.append_assoc]
  marks := by
    rw [positions_append]
    exact h₁.marks.trans h₂.marks
  written := by
    rw [h₂.written, h₁.written, List.flatten_append, List.map_append, List.append_assoc]
  faults := by
    rw [h₂.faults, h₁.faults, List.length_append]
    omega
  saves := fun h => by
    rw [h₂.saves fun e he => h e (List.mem_append_right _ he),
      h₁.saves fun e he => h e (List.mem_append_left _ he)]
  saveFault := fun h => h₁.saveFault (h₂.saveFault h)

/-! ## Saving -/

/-- Saving a record changes its file or says why not; the record takes the order of the file. -/
theorem trySave_runs {c : Cache} {o : Except Failure (Cache × Option String)}
    (hrun : c.trySave.Runs es o) (hw : w.Follows c.path es w') :
    ∃ c' fault, o = .ok (c', fault) ∧ c.Marks c' [] ∧ w'.out = w.out ∧ w'.sent = w.sent ∧
      w'.accepted = w.accepted ∧ (fault = none → w'.record = .bytes (Bytes.ofText c'.render)) ∧
      ((∀ e ∈ es, e.saves) → fault = none) := by
  rcases hw.trySave hrun with ⟨ho, rfl⟩ | ⟨reason, ho, rfl, hsaves⟩
  · exact ⟨c.ordered, none, ho, (Cache.Marks.refl c).ordered, rfl, rfl, rfl, fun _ => rfl,
      fun _ => rfl⟩
  · exact ⟨c, some reason, ho, .refl c, rfl, rfl, rfl, by simp, fun h => absurd h hsaves⟩

/-! ## One batch -/

theorem map_eraseIdx {α β : Type} (f : α → β) (l : List α) (i : Nat) :
    (l.eraseIdx i).map f = (l.map f).eraseIdx i := by
  simp [List.eraseIdx_eq_take_drop_succ, List.map_take, List.map_drop]

section

variable {n : Nat} {i : Fin (n + 1)} {answer : Except ClusterFault Signature} {batch : Batch}

/-- A batch that needs no transaction, or whose transaction was accepted, is marked. -/
theorem record_of_done (h : batch ≠ [] → ∃ signature, answer = .ok signature) :
    record batch answer p =
      (p.cache.markWritten ((batch.map ConfigLine.index).map UInt32.toNat)).trySave >>= fun c =>
        .done { p with
          cache := c.1
          written := p.written ++ batch.map ConfigLine.index
          saveFault := p.saveFault.or c.2 } := by
  cases batch with
  | nil => rfl
  | cons l ls =>
    obtain ⟨signature, rfl⟩ := h (by simp)
    rfl

/-- The answer to such a batch takes it from those that are out and has its transaction
accepted. -/
theorem step_of_done (h : batch ≠ [] → ∃ signature, answer = .ok signature)
    (hbatch : w.out[i.val]? = some (Batch.transaction? payer machine batch)) :
    (w.step path ⟨.await n, (i, answer)⟩).out = w.out.eraseIdx i ∧
      (w.step path ⟨.await n, (i, answer)⟩).sent = w.sent ∧
      (w.step path ⟨.await n, (i, answer)⟩).accepted =
        w.accepted ++ Batch.transactions payer machine [batch] := by
  cases answer with
  | ok _ =>
    simp only [World.step, hbatch, Batch.transactions, List.filterMap_cons]
    cases Batch.transaction? payer machine batch <;> simp
  | error fault =>
    have hnil : batch = [] := by
      by_contra hne
      obtain ⟨_, heq⟩ := h hne
      cases heq
    simp [World.step, hnil, Batch.transactions, Batch.transaction?]

/-- A batch that is refused is noted, and nothing else changes. -/
theorem Advance.refuse {fault : ClusterFault} {l : ConfigLine} {ls : List ConfigLine}
    {o : Except Failure Progress} (hrun : (record (l :: ls) (.error fault) p).Runs es o)
    (hw : (w.step path ⟨.await n, (i, .error fault)⟩).Follows path es w') :
    ∃ p', o = .ok p' ∧ w'.out = w.out.eraseIdx i ∧
      Advance payer machine w p (⟨.await n, (i, .error fault)⟩ :: es) w' p' [] [] [l :: ls] := by
  obtain ⟨rfl, rfl⟩ := Script.runs_done_iff.1 hrun
  obtain rfl := World.follows_nil.1 hw
  refine ⟨_, rfl, rfl, ?_⟩
  exact
    { sent := by simp [World.step, Batch.transactions]
      accepted := by simp [World.step, Batch.transactions]
      marks := .refl p.cache
      written := by simp
      faults := by simp
      saves := fun _ => rfl
      saveFault := fun h => h }

/-- A batch that is done is marked and the record saved. -/
theorem Advance.finish {o : Except Failure Progress}
    (hdone : batch ≠ [] → ∃ signature, answer = .ok signature)
    (hrun : (record batch answer p).Runs es o) (hpath : p.cache.path = path)
    (hbatch : w.out[i.val]? = some (Batch.transaction? payer machine batch))
    (hw : (w.step path ⟨.await n, (i, answer)⟩).Follows path es w') :
    ∃ p', o = .ok p' ∧ w'.out = w.out.eraseIdx i ∧
      Advance payer machine w p (⟨.await n, (i, answer)⟩ :: es) w' p' [] [batch] [] := by
  have ⟨hstepOut, hstepSent, hstepAccepted⟩ :
      (w.step path ⟨.await n, (i, answer)⟩).out = w.out.eraseIdx i ∧
      (w.step path ⟨.await n, (i, answer)⟩).sent = w.sent ∧
      (w.step path ⟨.await n, (i, answer)⟩).accepted =
        w.accepted ++ Batch.transactions payer machine [batch] := step_of_done hdone hbatch
  have hmarks := Cache.marks_markWritten p.cache ((batch.map ConfigLine.index).map UInt32.toNat)
  rw [record_of_done hdone, Script.runs_bind_iff] at hrun
  rcases hrun with ⟨e, -, hsave⟩ | ⟨c, es₁, es₂, rfl, hsave, hend⟩
  · obtain ⟨_, _, h, -⟩ := trySave_runs hsave (by rw [hmarks.path, hpath]; exact hw)
    cases h
  · obtain ⟨rfl, rfl⟩ := Script.runs_done_iff.1 hend
    rw [List.append_nil] at hw ⊢
    obtain ⟨c', fault, hc, hsaved, hout, hsent, haccepted, hfile, hfault⟩ :=
      trySave_runs hsave (by rw [hmarks.path, hpath]; exact hw)
    obtain rfl := Except.ok.inj hc
    refine ⟨_, rfl, hout.trans hstepOut, ?_⟩
    have hall := hmarks.trans hsaved
    exact
      { sent := by simp [hsent, hstepSent, Batch.transactions]
        accepted := by rw [haccepted, hstepAccepted]
        marks := by simpa [positions, List.map_map, Function.comp_def] using hall
        written := by simp
        faults := rfl
        saves := fun h => by
          have hnone := hfault fun e he => h e (List.mem_cons_of_mem _ he)
          simp [hnone]
        saveFault := fun h => (Option.or_eq_none_iff.1 h).1 }

/-- A batch that is answered is done or has failed, and the record says so. -/
theorem record_runs {o : Except Failure Progress} (hrun : (record batch answer p).Runs es o)
    (hpath : p.cache.path = path)
    (hbatch : w.out[i.val]? = some (Batch.transaction? payer machine batch))
    (hw : (w.step path ⟨.await n, (i, answer)⟩).Follows path es w') :
    ∃ p' done failed, o = .ok p' ∧ done ++ failed = [batch] ∧ w'.out = w.out.eraseIdx i ∧
      Advance payer machine w p (⟨.await n, (i, answer)⟩ :: es) w' p' [] done failed := by
  by_cases hdone : batch ≠ [] → ∃ signature, answer = .ok signature
  · obtain ⟨p', ho, hout, hadvance⟩ := Advance.finish hdone hrun hpath hbatch hw
    exact ⟨p', [batch], [], ho, rfl, hout, hadvance⟩
  · cases batch with
    | nil => exact absurd (fun h => absurd rfl h) hdone
    | cons l ls =>
      cases answer with
      | ok signature => exact absurd (fun _ => ⟨signature, rfl⟩) hdone
      | error fault =>
        obtain ⟨p', ho, hout, hadvance⟩ := Advance.refuse hrun hw
        exact ⟨p', [], [l :: ls], ho, rfl, hout, hadvance⟩

end

/-! ## Starting -/

theorem runs_start_bind_iff {β : Type} {b : Batch} {f : Unit → Script β} {o : Except Failure β} :
    (start payer machine b >>= f).Runs es o ↔
      ∃ es', es = ⟨.launch (Batch.transaction? payer machine b), ()⟩ :: es' ∧
        (f ()).Runs es' o := by
  refine Script.runs_ask_iff.trans ?_
  constructor
  · rintro ⟨_, es', rfl, h⟩
    exact ⟨es', rfl, h⟩
  · rintro ⟨es', rfl, h⟩
    exact ⟨(), es', rfl, h⟩

/-- Starting a batch sends its transaction. -/
theorem Advance.launch (w : World) (p : Progress) (b : Batch) :
    Advance payer machine w p [⟨.launch (Batch.transaction? payer machine b), ()⟩]
      (w.step path ⟨.launch (Batch.transaction? payer machine b), ()⟩) p [b] [] [] where
  sent := by
    simp only [World.step, Batch.transactions, List.filterMap_cons, List.filterMap_nil]
    cases Batch.transaction? payer machine b <;> simp
  accepted := by simp [World.step, Batch.transactions]
  marks := .refl p.cache
  written := by simp
  faults := rfl
  saves := fun _ => rfl
  saveFault := fun h => h

/-- Starting batches puts them behind those that are out. -/
theorem startAll_runs {batches : List Batch} {o : Except Failure Unit}
    (hrun : (startAll payer machine batches).Runs es o) (hw : w.Follows path es w') (p : Progress) :
    o = .ok () ∧ w'.out = w.out ++ batches.map (Batch.transaction? payer machine) ∧
      Advance payer machine w p es w' p batches [] [] := by
  induction batches generalizing w es with
  | nil =>
    obtain ⟨rfl, rfl⟩ := Script.runs_done_iff.1 hrun
    obtain rfl := World.follows_nil.1 hw
    exact ⟨rfl, by simp, .refl _ p _⟩
  | cons b bs ih =>
    obtain ⟨es', rfl, hrest⟩ := runs_start_bind_iff.1 hrun
    obtain ⟨-, hw⟩ := hw
    obtain ⟨ho, hout, hadvance⟩ := ih hrest hw
    refine ⟨ho, by simp [hout, World.step], ?_⟩
    exact (Advance.launch w p b).trans hadvance

/-! ## All batches -/

theorem perm_others (b : Batch) (bs : List Batch) (i : Fin (bs.length + 1)) :
    ((b :: bs).get i :: others b bs i).Perm (b :: bs) :=
  List.getElem_cons_eraseIdx_perm (l := b :: bs) i.isLt

/-- How waiting for batches ends. -/
structure Drained (payer machine : Address) (out waiting : List Batch) (w : World) (p : Progress)
    (es : List Event) (w' : World) (p' : Progress) (started done failed left : List Batch) :
    Prop where
  waiting_eq : waiting = started ++ left
  perm : (done ++ failed).Perm (out ++ started)
  nothingOut : w'.out = []
  advance : Advance payer machine w p es w' p' started done failed
  goesOn : (out = [] → waiting = []) → (∀ e ∈ es, e.letsGoOn) → left = []

/-- A round, in which one batch is answered and perhaps the next one started, before the rest. -/
theorem Drained.round {out rest next later left : List Batch}
    (hround : Advance payer machine w p es₁ w₁ p₁ next done₁ failed₁)
    (hperm : (done₁ ++ failed₁ ++ rest).Perm out)
    (hgo : (∀ e ∈ es₁, e.letsGoOn) → rest ++ next = [] → later = [])
    (hrest : Drained payer machine (rest ++ next) later w₁ p₁ es₂ w' p' started₂ done₂ failed₂
      left) :
    Drained payer machine out (next ++ later) w p (es₁ ++ es₂) w' p' (next ++ started₂)
      (done₁ ++ done₂) (failed₁ ++ failed₂) left where
  waiting_eq := by rw [hrest.waiting_eq, List.append_assoc]
  perm := by
    have hswap : (done₁ ++ done₂ ++ (failed₁ ++ failed₂)).Perm
        (done₁ ++ failed₁ ++ (done₂ ++ failed₂)) := by
      have hcomm : (done₂ ++ failed₁).Perm (failed₁ ++ done₂) := List.perm_append_comm
      simpa only [List.append_assoc] using (hcomm.append_right failed₂).append_left done₁
    have hregroup : done₁ ++ failed₁ ++ (rest ++ next ++ started₂) =
        done₁ ++ failed₁ ++ rest ++ (next ++ started₂) := by
      simp only [List.append_assoc]
    refine hswap.trans ((hrest.perm.append_left _).trans ?_)
    rw [hregroup]
    exact hperm.append_right _
  nothingOut := hrest.nothingOut
  advance := hround.trans hrest.advance
  goesOn := fun _ h => hrest.goesOn (hgo fun e he => h e (List.mem_append_left _ he))
    fun e he => h e (List.mem_append_right _ he)

/-- **Whatever the order of the answers**, every batch that was out or started is done or has
failed in the end, nothing is out, and unless the user stops it, everything was started. -/
theorem drain_runs {out waiting : List Batch} {o : Except Failure (Progress × List Batch)}
    (hrun : (drain payer machine out waiting p).Runs es o) (hpath : p.cache.path = path)
    (hout : w.out = out.map (Batch.transaction? payer machine)) (hw : w.Follows path es w') :
    ∃ p' started done failed left, o = .ok (p', left) ∧
      Drained payer machine out waiting w p es w' p' started done failed left := by
  induction out, waiting, p using drain.induct generalizing w es with
  | case1 waiting p =>
    rw [drain] at hrun
    obtain ⟨rfl, rfl⟩ := Script.runs_done_iff.1 hrun
    obtain rfl := World.follows_nil.1 hw
    refine ⟨p, [], [], [], waiting, rfl, ?_⟩
    exact
      { waiting_eq := rfl
        perm := .refl _
        nothingOut := hout
        advance := .refl _ p _
        goesOn := fun h _ => h rfl }
  | case2 waiting p b bs ih =>
    rw [drain, Script.runs_ask_iff] at hrun
    obtain ⟨⟨i, answer⟩, es', rfl, hrun⟩ := hrun
    obtain ⟨-, hw⟩ := hw
    have hbatch : w.out[i.val]? = some (Batch.transaction? payer machine ((b :: bs).get i)) := by
      rw [hout, List.getElem?_map, List.getElem?_eq_getElem (l := b :: bs) i.isLt]
      rfl
    rcases Script.runs_bind_iff.1 hrun with ⟨e, -, hrecord⟩ | ⟨p₁, es₁, es₂, rfl, hrecord, hrun⟩
    · obtain ⟨_, _, _, h, -⟩ := record_runs hrecord hpath hbatch hw
      cases h
    obtain ⟨w₁, hw₁, hw₂⟩ := World.follows_append.1 hw
    obtain ⟨_, done₁, failed₁, h, hone, hout₁, hround⟩ := record_runs hrecord hpath hbatch hw₁
    obtain rfl := Except.ok.inj h
    obtain ⟨stop, es₃, rfl, hnext⟩ := Script.runs_ask_iff.1 hrun
    obtain ⟨-, hw₂⟩ := hw₂
    have hperm : (done₁ ++ failed₁ ++ others b bs i).Perm (b :: bs) := by
      rw [hone]
      exact perm_others b bs i
    have hothers : w₁.out = (others b bs i).map (Batch.transaction? payer machine) := by
      rw [hout₁, hout, others, map_eraseIdx]
    have hpath₁ : p₁.cache.path = path := hround.marks.path.trans hpath
    have hround' := hround.trans (.refl w₁ p₁ [⟨.interrupted, stop⟩])
    -- The next batch is started if there is one and the user did not stop.
    by_cases hstart : stop = false ∧ waiting ≠ []
    · obtain ⟨rfl, hne⟩ := hstart
      rcases List.exists_cons_of_ne_nil hne with ⟨next, later, rfl⟩
      obtain ⟨es₄, rfl, hlater⟩ := runs_start_bind_iff.1 hnext
      obtain ⟨-, hw₂⟩ := hw₂
      obtain ⟨p', started, done, failed, left, ho, hrest⟩ :=
        ih i p₁ false hlater hpath₁ (by simp [World.step, hothers]) hw₂
      refine ⟨p', next :: started, done₁ ++ done, failed₁ ++ failed, left, ho, ?_⟩
      have hall := Drained.round (hround'.trans (.launch w₁ p₁ next)) (by simpa using hperm)
        (by simp) hrest
      simpa using hall
    · obtain ⟨p', started, done, failed, left, ho, hrest⟩ :
          ∃ p' started done failed left, o = .ok (p', left) ∧
            Drained payer machine (others b bs i) waiting w₁ p₁ es₃ w' p' started done failed
              left := by
        cases stop with
        | true => exact ih i p₁ true hnext hpath₁ hothers hw₂
        | false =>
          cases waiting with
          | nil => exact ih i p₁ false hnext hpath₁ hothers hw₂
          | cons next later => exact absurd ⟨rfl, by simp⟩ hstart
      refine ⟨p', started, done₁ ++ done, failed₁ ++ failed, left, ho, ?_⟩
      have hgo : (∀ e ∈ ⟨.await bs.length, (i, answer)⟩ :: es₁ ++ [⟨.interrupted, stop⟩],
          e.letsGoOn) → others b bs i ++ [] = [] → waiting = [] := by
        intro h _
        by_contra hne
        cases stop with
        | true => cases h ⟨.interrupted, true⟩ (by simp)
        | false => exact hstart ⟨rfl, hne⟩
      rw [← List.append_nil (others b bs i)] at hrest
      have hall := Drained.round hround' (by simpa using hperm) hgo hrest
      simpa using hall

/-- What became of batches. -/
structure Tally where
  started : List Batch
  done : List Batch
  failed : List Batch
  left : List Batch

/-- What writing batches did to the world and to the record. -/
structure Written (payer machine : Address) (batches : List Batch) (w : World) (c : Cache)
    (es : List Event) (w' : World) (c' : Cache) (t : Tally) : Prop where
  batches_eq : batches = t.started ++ t.left
  perm : (t.done ++ t.failed).Perm t.started
  nothingOut : w'.out = []
  sent : w'.sent = w.sent ++ Batch.transactions payer machine t.started
  accepted : w'.accepted = w.accepted ++ Batch.transactions payer machine t.done
  marks : c.Marks c' (positions t.done)
  goesOn : (∀ e ∈ es, e.letsGoOn) → t.left = []
  saved : (∀ e ∈ es, e.saves) → w'.record = .bytes (Bytes.ofText c'.render)

theorem Written.mono {batches : List Batch} {c c' : Cache} {t : Tally} {fs : List Event}
    (h : Written payer machine batches w c es w' c' t) (hsub : ∀ e ∈ es, e ∈ fs) :
    Written payer machine batches w c fs w' c' t :=
  { h with
    goesOn := fun hfs => h.goesOn fun e he => hfs e (hsub e he)
    saved := fun hfs => h.saved fun e he => hfs e (hsub e he) }

theorem effectiveLimit_pos (limit : Nat) : 0 < effectiveLimit limit := by
  unfold effectiveLimit defaultLimit
  split <;> omega

theorem runAll_runs {limit : Nat} {c : Cache} {batches : List Batch} {o : Except Failure Ending}
    (hrun : (runAll payer machine limit c batches).Runs es o) (hpath : c.path = path)
    (hout : w.out = []) (hw : w.Follows path es w') :
    ∃ ending t, o = .ok ending ∧ Written payer machine batches w c es w' ending.cache t ∧
      (ending.outcome.success = true ↔ t.failed = [] ∧ t.left = []) ∧
      (ending.saveFault = none → w'.record = .bytes (Bytes.ofText ending.cache.render)) := by
  obtain ⟨es₀, rfl, hstages⟩ := Script.runs_say_bind_iff.1 hrun
  have hw₀ := hw.tail_of_quiet trivial
  rcases hw₀.stages hstages with
    ⟨_, -, hstart⟩ | ⟨_, es₁, es₂, w₁, rfl, hstart, hw₁, hstages₂, hw₂⟩
  · cases (startAll_runs hstart hw₀ ⟨c, [], [], none⟩).1
  obtain ⟨-, hout₁, hstarted⟩ := startAll_runs hstart hw₁ ⟨c, [], [], none⟩
  rw [hout, List.nil_append] at hout₁
  rcases hw₂.stages hstages₂ with
    ⟨_, -, hdrain⟩ | ⟨_, es₃, es₄, w₃, rfl, hdrain, hw₃, hstages₃, hw₄⟩
  · obtain ⟨_, _, _, _, _, h, -⟩ := drain_runs hdrain hpath hout₁ hw₂
    cases h
  obtain ⟨p', started, done, failed, left, h, hdrained⟩ := drain_runs hdrain hpath hout₁ hw₃
  obtain rfl := Except.ok.inj h
  have hwork := hstarted.trans hdrained.advance
  have hpath' : p'.cache.path = path := hwork.marks.path.trans hpath
  rcases hw₄.stages hstages₃ with
    ⟨_, -, hsave⟩ | ⟨_, es₅, es₆, w₅, rfl, hsave, hw₅, hend, hw₆⟩
  · obtain ⟨_, _, h, -⟩ := trySave_runs hsave (hpath' ▸ hw₄)
    cases h
  obtain ⟨c', fault, h, hsaved, hout', hsent, haccepted, hfile, hfault⟩ :=
    trySave_runs hsave (hpath' ▸ hw₅)
  obtain rfl := Except.ok.inj h
  obtain ⟨rfl, rfl⟩ := Script.runs_done_iff.1 hend
  obtain rfl := World.follows_nil.1 hw₆
  have hlimit := effectiveLimit_pos limit
  refine ⟨_, ⟨batches.take (effectiveLimit limit) ++ started, done, failed, left⟩, rfl,
    { batches_eq := ?_, perm := ?_, nothingOut := ?_, sent := ?_, accepted := ?_, marks := ?_,
      goesOn := ?_, saved := ?_ }, ?_, ?_⟩
  · rw [List.append_assoc, ← hdrained.waiting_eq, List.take_append_drop]
  · exact hdrained.perm
  · rw [hout', hdrained.nothingOut]
  · rw [hsent, hwork.sent]
  · rw [haccepted, hwork.accepted]
    rfl
  · have := hwork.marks.trans hsaved
    simpa using this
  · intro h
    refine hdrained.goesOn (fun htake => ?_) fun e he => h e (by simp [he])
    rcases List.take_eq_nil_iff.1 htake with h0 | hnil
    · omega
    · rw [hnil, List.drop_nil]
  · intro h
    exact hfile (hfault fun e he => h e (by simp [he]))
  · have hfaults := hwork.faults
    simp only [List.length_nil, Nat.zero_add, List.nil_append] at hfaults
    cases left with
    | nil => simp [Outcome.success, ← List.length_eq_zero_iff, hfaults]
    | cons b bs => simp [Outcome.success]
  · intro h
    exact hfile (Option.or_eq_none_iff.1 h).1

/-- **Writing batches**: however it ends, what was done is in the record. It succeeds without
faults only if every batch was started and none has failed. -/
theorem run_runs {limit : Nat} {c : Cache} {batches : List Batch}
    {o : Except Failure (Cache × Outcome)}
    (hrun : (run payer machine limit c batches).Runs es o) (hpath : c.path = path)
    (hout : w.out = []) (hw : w.Follows path es w') :
    ∃ c' t, Written payer machine batches w c es w' c' t ∧
      ((∃ reason, o = .error (.unwritable reason)) ∨
        ∃ outcome, o = .ok (c', outcome) ∧ w'.record = .bytes (Bytes.ofText c'.render) ∧
          (outcome.success = true ↔ t.failed = [] ∧ t.left = [])) := by
  rcases hw.stages hrun with ⟨_, -, hall⟩ | ⟨ending, es₁, es₂, w₁, rfl, hall, hw₁, hend, hw₂⟩
  · obtain ⟨_, _, h, -⟩ := runAll_runs hall hpath hout hw
    cases h
  obtain ⟨_, t, h, hwritten, hsuccess, hfile⟩ := runAll_runs hall hpath hout hw₁
  obtain rfl := Except.ok.inj h
  cases hfault : ending.saveFault with
  | none =>
    simp only [hfault, Script.pure_eq_done, Script.runs_done_iff] at hend
    obtain ⟨rfl, rfl⟩ := hend
    obtain rfl := World.follows_nil.1 hw₂
    rw [List.append_nil]
    exact ⟨ending.cache, t, hwritten, .inr ⟨ending.outcome, rfl, hfile hfault, hsuccess⟩⟩
  | some reason =>
    simp only [hfault, Script.runs_fail_iff] at hend
    obtain ⟨rfl, rfl⟩ := hend
    obtain rfl := World.follows_nil.1 hw₂
    rw [List.append_nil]
    exact ⟨ending.cache, t, hwritten, .inl ⟨reason, rfl⟩⟩

end CandyDrop.Schedule
