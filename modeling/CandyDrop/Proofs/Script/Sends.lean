import CandyDrop.Proofs.Script.Quiet

/-!
# What comes before a transaction is sent

An event of a run in stages belongs to one of them (`Script.Runs.split_bind`). A stage that only
looks sends nothing, so that it is over, and was successful, when a transaction is sent in the run
(`Script.Runs.split_sent`). `Script.DoneIn` says that a script was run with success somewhere along a
transcript.
-/

namespace CandyDrop

/-- The transaction that a request sends, at once or in the background. -/
def Request.sent? : Request → Option Transaction
  | .submit t => some t
  | .launch t => t
  | _ => none

theorem Request.IsQuiet.sent?_eq_none {r : Request} (h : r.IsQuiet) : r.sent? = none := by
  cases r <;> first | rfl | exact h.elim

namespace Script

variable {α β : Type} {s : Script α} {f : α → Script β} {before after es fs : List Event}
  {e : Event} {t : Transaction} {o : Except Failure β} {x : α}

/-- The script was run somewhere along these events, and it ended with this value. -/
def DoneIn (s : Script α) (x : α) (es : List Event) : Prop :=
  ∃ gs, gs <:+: es ∧ s.Runs gs (.ok x)

theorem DoneIn.mono (h : s.DoneIn x es) (hsub : es <:+: fs) : s.DoneIn x fs := by
  obtain ⟨gs, hgs, hrun⟩ := h
  exact ⟨gs, hgs.trans hsub, hrun⟩

theorem Runs.doneIn (h : s.Runs es (.ok x)) : s.DoneIn x es := ⟨es, List.infix_rfl, h⟩

/-- An event of a run in two stages belongs to the first one, or to the second one after the first
one has succeeded. -/
theorem Runs.split_bind (h : (s >>= f).Runs (before ++ e :: after) o) :
    (∃ after' o', (∃ rest, after = after' ++ rest) ∧ s.Runs (before ++ e :: after') o') ∨
      ∃ x es₁ es₂, before = es₁ ++ es₂ ∧ s.Runs es₁ (.ok x) ∧
        (f x).Runs (es₂ ++ e :: after) o := by
  rcases runs_bind_iff.1 h with ⟨e', -, h₁⟩ | ⟨x, es₁, es₂, hes, h₁, h₂⟩
  · exact .inl ⟨after, _, ⟨[], (List.append_nil after).symm⟩, h₁⟩
  rcases List.append_eq_append_iff.1 hes with ⟨fs, rfl, hafter⟩ | ⟨fs, rfl, rfl⟩
  · cases fs with
    | nil =>
      rw [List.append_nil] at h₁
      obtain rfl : es₂ = e :: after := hafter.symm
      exact .inr ⟨x, before, [], (List.append_nil before).symm, h₁, h₂⟩
    | cons e' fs =>
      obtain ⟨rfl, rfl⟩ := List.cons.inj hafter
      exact .inl ⟨fs, _, ⟨es₂, rfl⟩, h₁⟩
  · exact .inr ⟨x, es₁, fs, rfl, h₁, h₂⟩

/-- **A stage that only looks has succeeded** when a transaction is sent. -/
theorem Runs.split_sent {Q : Failure → Prop} (h : (s >>= f).Runs (before ++ e :: after) o)
    (hs : s.Only Request.IsQuiet Q) (ht : e.request.sent? = some t) :
    ∃ x es₁ es₂, before = es₁ ++ es₂ ∧ s.Runs es₁ (.ok x) ∧
      (f x).Runs (es₂ ++ e :: after) o := by
  rcases h.split_bind with ⟨after', o', -, h₁⟩ | hrest
  · have hquiet := h₁.forall_request hs e (by simp)
    rw [hquiet.sent?_eq_none] at ht
    cases ht
  · exact hrest

theorem not_runs_done {y : β} : ¬(done y).Runs (before ++ e :: after) o := by
  intro h
  have hnil := (runs_done_iff.1 h).1
  simp at hnil

theorem not_runs_fail {e' : Failure} :
    ¬(fail e' : Script β).Runs (before ++ e :: after) o := by
  intro h
  have hnil := (runs_fail_iff.1 h).1
  simp at hnil

end Script

end CandyDrop
