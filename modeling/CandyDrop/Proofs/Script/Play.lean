import CandyDrop.Proofs.Script.Runs

/-!
# Playing a script

A script is finite whatever it is answered. `play` plays it against answers that may depend on
everything that was asked and answered before, so that every way of answering leads it to an end
(`exists_runs`), and runs with chosen answers can be computed.
-/

namespace CandyDrop.Script

variable {α : Type}

/-- The answers of a transcript are these. -/
def AnsweredBy (answers : List Event → (r : Request) → r.Answer) (es : List Event) : Prop :=
  ∀ fs e gs, es = fs ++ e :: gs → e.answer = answers fs e.request

/-- The events of a script that is given these answers, and how it ends. -/
def play (answers : List Event → (r : Request) → r.Answer) :
    Script α → (before : List Event) → List Event × Except Failure α
  | done x, _ => ([], .ok x)
  | fail e, _ => ([], .error e)
  | ask r next, before =>
    let e : Event := ⟨r, answers before r⟩
    let (es, o) := play answers (next (answers before r)) (before ++ [e])
    (e :: es, o)

theorem runs_play (answers : List Event → (r : Request) → r.Answer) (s : Script α)
    (before : List Event) : s.Runs (s.play answers before).1 (s.play answers before).2 := by
  induction s generalizing before with
  | done x => exact .done x
  | fail e => exact .fail e
  | ask r next ih => exact .ask (ih (answers before r) _)

theorem answer_play {answers : List Event → (r : Request) → r.Answer} {s : Script α}
    {before fs gs : List Event} {e : Event} (h : (s.play answers before).1 = fs ++ e :: gs) :
    e.answer = answers (before ++ fs) e.request := by
  induction s generalizing before fs with
  | done x => simp [play] at h
  | fail e => simp [play] at h
  | ask r next ih =>
    cases fs with
    | nil =>
      obtain ⟨rfl, -⟩ := List.cons.inj h
      rw [List.append_nil]
    | cons f fs =>
      obtain ⟨rfl, hrest⟩ := List.cons.inj h
      simpa using ih _ hrest

/-- **Whatever a script is answered, it comes to an end.** -/
theorem exists_runs (s : Script α) (answers : List Event → (r : Request) → r.Answer) :
    ∃ es o, s.Runs es o ∧ AnsweredBy answers es :=
  ⟨_, _, s.runs_play answers [], fun _ _ _ h => answer_play h⟩

end CandyDrop.Script
