import CandyDrop.Cache.File
import CandyDrop.Proofs.Cluster.Effects
import CandyDrop.Proofs.Script.Runs

/-!
# The world around a run

What a run meets and leaves behind: the file of the record, the transactions that are out, and
those that were sent and accepted so far (`World`). The events of a transcript change the world one
by one (`World.step`), and `World.Follows` says that a transcript leads from one world to another
and that its answers fit: the file of the record is read as it is, if it can be opened at all.

A transaction that is refused has no effect, and one that is sent in the background has its effect
when it is answered. Requests other than sending, waiting and writing leave the world as it is
(`Follows.eq_of_quiet`).
-/

namespace CandyDrop

/-- Whether something can be read of a file: what it holds, unless it cannot be opened. -/
def Content.reads (file : Content) : Content → Bool
  | .closed _ => true
  | content => content == file

/-- The file of a record, and transactions in the order in which they were started, sent and
accepted. -/
structure World where
  record : Content
  out : List (Option Transaction)
  sent : List Transaction
  accepted : List Transaction
  deriving DecidableEq

namespace World

variable {path : String} {w w' : World} {e : Event} {es fs : List Event}

/-- A world in which nothing was sent yet. -/
def start (record : Content) : World := ⟨record, [], [], []⟩

/-- The world after an event; `path` is the file of the record. -/
def step (path : String) (w : World) : Event → World
  | ⟨.submit t, .ok _⟩ => { w with sent := w.sent ++ [t], accepted := w.accepted ++ [t] }
  | ⟨.submit t, .error _⟩ => { w with sent := w.sent ++ [t] }
  | ⟨.launch t, _⟩ => { w with out := w.out ++ [t], sent := w.sent ++ t.toList }
  | ⟨.await _, (i, .ok _)⟩ =>
    { w with
      out := w.out.eraseIdx i
      accepted := w.accepted ++ (w.out[i.val]?).join.toList }
  | ⟨.await _, (i, .error _)⟩ => { w with out := w.out.eraseIdx i }
  | ⟨.write p text, none⟩ =>
    if p = path then { w with record := .bytes (Bytes.ofText text) } else w
  | _ => w

/-- Whether an event can happen: what is read of the record is what it is, unless it cannot be
opened. -/
def permits (path : String) (w : World) : Event → Bool
  | ⟨.read p, content⟩ => p != path || w.record.reads content
  | _ => true

/-- The events of a transcript can happen one after another, and this is where they lead. -/
def Follows (path : String) : World → List Event → World → Prop
  | w, [], w' => w' = w
  | w, e :: es, w' => w.permits path e ∧ Follows path (w.step path e) es w'

@[simp] theorem follows_nil : w.Follows path [] w' ↔ w' = w := Iff.rfl

@[simp] theorem follows_cons :
    w.Follows path (e :: es) w' ↔ w.permits path e ∧ (w.step path e).Follows path es w' := Iff.rfl

theorem follows_append :
    w.Follows path (es ++ fs) w' ↔ ∃ v, w.Follows path es v ∧ v.Follows path fs w' := by
  induction es generalizing w with
  | nil => simp
  | cons e es ih => simp [ih, and_assoc]

/-! ## Requests that change nothing -/

end World

/-- Whether a request neither sends nor waits nor writes. -/
def Request.IsQuiet : Request → Prop
  | .submit _ | .launch _ | .await _ | .write _ _ | .append _ _ => False
  | _ => True

namespace World

variable {path : String} {w w' : World} {e : Event} {es fs : List Event}

theorem step_of_quiet (h : e.request.IsQuiet) : w.step path e = w := by
  obtain ⟨r, a⟩ := e
  cases r <;> first | rfl | exact h.elim

theorem Follows.eq_of_quiet (h : w.Follows path es w') (hq : ∀ e ∈ es, e.request.IsQuiet) :
    w' = w := by
  induction es generalizing w with
  | nil => exact h
  | cons e es ih =>
    rw [follows_cons, step_of_quiet (hq e (List.mem_cons_self ..))] at h
    exact ih h.2 fun e he => hq e (List.mem_cons_of_mem _ he)

theorem Follows.tail_of_quiet (h : w.Follows path (e :: es) w') (hq : e.request.IsQuiet) :
    w.Follows path es w' := by
  rw [follows_cons, step_of_quiet hq] at h
  exact h.2

theorem Follows.eq_of_only {α : Type} {s : Script α} {o : Except Failure α} {Q : Failure → Prop}
    (h : w.Follows path es w') (hrun : s.Runs es o) (hs : s.Only Request.IsQuiet Q) : w' = w :=
  h.eq_of_quiet (hrun.forall_request hs)

/-! ## Stages of a script -/

section

variable {path : String} {w w' : World} {es : List Event} {α β : Type} {s : Script α}
  {f : α → Script β} {o : Except Failure β} {Q : Failure → Prop}

/-- A run in two stages fails in the first one, or there is a world between the stages. -/
theorem Follows.stages (hw : w.Follows path es w') (h : (s >>= f).Runs es o) :
    (∃ e, o = .error e ∧ s.Runs es (.error e)) ∨
      ∃ x es₁ es₂ v, es = es₁ ++ es₂ ∧ s.Runs es₁ (.ok x) ∧ w.Follows path es₁ v ∧
        (f x).Runs es₂ o ∧ v.Follows path es₂ w' := by
  rcases Script.runs_bind_iff.1 h with ⟨e, rfl, h₁⟩ | ⟨x, es₁, es₂, rfl, h₁, h₂⟩
  · exact .inl ⟨e, rfl, h₁⟩
  · obtain ⟨v, hv, hw⟩ := follows_append.1 hw
    exact .inr ⟨x, es₁, es₂, v, rfl, h₁, hv, h₂, hw⟩

/-- If the first stage changes nothing, the second one starts in the same world. -/
theorem Follows.stages_of_only (hw : w.Follows path es w') (h : (s >>= f).Runs es o)
    (hs : s.Only Request.IsQuiet Q) :
    (∃ e, o = .error e ∧ Q e ∧ w' = w) ∨
      ∃ x es₁ es₂, es = es₁ ++ es₂ ∧ s.Runs es₁ (.ok x) ∧ (f x).Runs es₂ o ∧
        w.Follows path es₂ w' := by
  rcases hw.stages h with ⟨e, rfl, h₁⟩ | ⟨x, es₁, es₂, v, rfl, h₁, hv, h₂, hw₂⟩
  · exact .inl ⟨e, rfl, h₁.of_error hs, hw.eq_of_only h₁ hs⟩
  · obtain rfl := hv.eq_of_only h₁ hs
    exact .inr ⟨x, es₁, es₂, rfl, h₁, h₂, hw₂⟩

end

end World

/-! ## Runs without trouble -/

namespace Event

/-- A file that is written is there afterwards. -/
def saves : Event → Bool
  | ⟨.write _ _, some _⟩ => false
  | _ => true

/-- The user does not want to stop. -/
def letsGoOn : Event → Bool
  | ⟨.interrupted, true⟩ => false
  | _ => true

end Event

/-! ## Requests that change something -/

namespace World

/-- The world after some transactions were sent and some accepted. -/
def sends (w : World) (sent accepted : List Transaction) : World :=
  { w with sent := w.sent ++ sent, accepted := w.accepted ++ accepted }

/-- The world after a record was saved. -/
def saves (w : World) (c : Cache) : World :=
  { w with record := .bytes (Bytes.ofText c.render) }

variable {path : String} {w w' : World} {es : List Event}

/-- A transaction that is sent is accepted or refused. -/
theorem Follows.submit {t : Transaction} {o : Except Failure Signature}
    (hw : w.Follows path es w') (h : (Script.submit t).Runs es o) :
    (∃ signature, o = .ok signature ∧ w' = w.sends [t] [t]) ∨
      ∃ fault, o = .error (.cluster fault) ∧ w' = w.sends [t] [] := by
  obtain ⟨answer, es', rfl, hend⟩ := Script.runs_ask_iff.1 h
  obtain ⟨rfl, rfl⟩ := Script.runs_ofExcept_iff.1 hend
  obtain ⟨-, rfl⟩ := hw
  cases answer with
  | ok signature => exact .inl ⟨signature, rfl, rfl⟩
  | error fault =>
    refine .inr ⟨fault, rfl, ?_⟩
    simp [step, sends]

/-- A record that is saved takes the order of its file; otherwise nothing changes. -/
theorem Follows.trySave {c : Cache} {o : Except Failure (Cache × Option String)}
    (hw : w.Follows c.path es w') (h : c.trySave.Runs es o) :
    (o = .ok (c.ordered, none) ∧ w' = w.saves c.ordered) ∨
      ∃ reason, o = .ok (c, some reason) ∧ w' = w ∧ ¬∀ e ∈ es, e.saves := by
  rw [Cache.trySave, Cache.tryWrite, Script.request, Script.ask_bind, Script.runs_ask_iff] at h
  obtain ⟨a, es', rfl, hend⟩ := h
  obtain ⟨-, hw⟩ := hw
  cases a with
  | none =>
    obtain ⟨rfl, rfl⟩ := Script.runs_done_iff.1 hend
    obtain rfl := hw
    refine .inl ⟨rfl, ?_⟩
    simp [step, saves]
  | some reason =>
    obtain ⟨rfl, rfl⟩ := Script.runs_done_iff.1 hend
    obtain rfl := hw
    refine .inr ⟨reason, rfl, rfl, fun h => ?_⟩
    cases h _ (List.mem_cons_self ..)

theorem Follows.save {c : Cache} {o : Except Failure Cache} (hw : w.Follows c.path es w')
    (h : c.save.Runs es o) :
    (o = .ok c.ordered ∧ w' = w.saves c.ordered) ∨
      ∃ reason, o = .error (.unwritable reason) ∧ w' = w ∧ ¬∀ e ∈ es, e.saves := by
  rcases hw.stages h with ⟨_, -, htry⟩ | ⟨x, es₁, es₂, v, rfl, htry, hv, hend, hw₂⟩
  · rcases hw.trySave htry with ⟨ho, -⟩ | ⟨_, ho, -⟩ <;> cases ho
  · rcases hv.trySave htry with ⟨ho, rfl⟩ | ⟨reason, ho, rfl, hsaves⟩
    · cases ho
      obtain ⟨rfl, rfl⟩ := Script.runs_done_iff.1 hend
      exact .inl ⟨rfl, hw₂⟩
    · cases ho
      obtain ⟨rfl, rfl⟩ := Script.runs_fail_iff.1 hend
      exact .inr ⟨reason, rfl, hw₂, fun h => hsaves fun e he => h e (by simp [he])⟩

end World

end CandyDrop
