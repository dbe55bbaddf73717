import CandyDrop.Proofs.Script.Quiet

/-!
# What is saved first

A file may be written many times in a run. `firstSaved? path es` is the text that stands in it after
the first write that succeeds. A script that never writes can stand before another one and changes
nothing of this (`firstSaved?_append_of_neverWrites`), and saving a record writes its text once
(`Cache.save_runs`).
-/

namespace CandyDrop

/-- Whether a request writes a file, as a whole or at its end. -/
def Request.IsWrite : Request → Prop
  | .write _ _ | .append _ _ => True
  | _ => False

theorem Request.IsQuiet.not_isWrite {r : Request} (h : r.IsQuiet) : ¬r.IsWrite := by
  cases r <;> first | exact id | exact h.elim

/-- What an event leaves in a file. -/
def Event.saved? (path : String) : Event → Option String
  | ⟨.write p text, none⟩ => if p = path then some text else none
  | _ => none

/-- What is saved first in a file. -/
def firstSaved? (path : String) (es : List Event) : Option String :=
  es.findSome? (Event.saved? path)

theorem firstSaved?_append (path : String) (es fs : List Event) :
    firstSaved? path (es ++ fs) = (firstSaved? path es).or (firstSaved? path fs) :=
  List.findSome?_append

namespace Script

variable {α : Type} {s : Script α} {path : String} {es fs : List Event} {o : Except Failure α}

/-- A script that writes no file. -/
abbrev NeverWrites (s : Script α) : Prop := s.Only (fun r => ¬r.IsWrite) fun _ => True

theorem neverWrites_of_only {Q : Failure → Prop} (h : s.Only Request.IsQuiet Q) : s.NeverWrites :=
  h.mono (fun _ => Request.IsQuiet.not_isWrite) fun _ _ => trivial

theorem firstSaved?_of_neverWrites (h : s.Runs es o) (hs : s.NeverWrites) :
    firstSaved? path es = none := by
  refine List.findSome?_eq_none_iff.2 fun e he => ?_
  have hnot := h.forall_request hs e he
  obtain ⟨r, answer⟩ := e
  cases r <;> first | rfl | exact (hnot trivial).elim

theorem firstSaved?_append_of_neverWrites (h : s.Runs es o) (hs : s.NeverWrites) :
    firstSaved? path (es ++ fs) = firstSaved? path fs := by
  rw [firstSaved?_append, firstSaved?_of_neverWrites h hs, Option.none_or]

end Script

/-- Creating a machine writes nothing. -/
theorem Machine.neverWrites_create (payer : Address) (settings : Settings)
    (details : CollectionDetails) (items : UInt64) :
    (create payer settings details items).NeverWrites := by
  refine (Script.only_request id).bind fun machine => Script.Only.bind ?_ fun _ => trivial
  unfold initializeAt
  split
  · trivial
  · refine (Script.neverWrites_of_only (Script.quiet_rent _)).bind fun _ => ?_
    refine (Script.neverWrites_of_only (Script.quiet_balance _)).bind fun _ => ?_
    split
    · trivial
    · exact ⟨id, fun _ => Script.only_ofExcept fun _ _ => trivial⟩

namespace Cache

variable {c : Cache} {es : List Event}

theorem save_runs {o : Except Failure Cache} (h : c.save.Runs es o) :
    es = [⟨.write c.path c.ordered.render, none⟩] ∧ o = .ok c.ordered ∨
      ∃ reason, es = [⟨.write c.path c.ordered.render, some reason⟩] ∧
        o = .error (.unwritable reason) := by
  obtain ⟨fault, es', rfl, hend⟩ := Script.runs_ask_iff.1 h
  cases fault with
  | none =>
    obtain ⟨rfl, rfl⟩ := Script.runs_done_iff.1 hend
    exact .inl ⟨rfl, rfl⟩
  | some reason =>
    obtain ⟨rfl, rfl⟩ := Script.runs_fail_iff.1 hend
    exact .inr ⟨reason, rfl, rfl⟩

/-- If a record is saved and more follows, what is saved first is the record; if it cannot be saved,
nothing follows. -/
theorem firstSaved?_save_bind {α : Type} {f : Cache → Script α} {o : Except Failure α}
    (h : (c.save >>= f).Runs es o) :
    (firstSaved? c.path es = some c.ordered.render ∧ ∃ es', (f c.ordered).Runs es' o) ∨
      firstSaved? c.path es = none ∧ ∃ e, o = .error e := by
  rcases Script.runs_bind_iff.1 h with ⟨e, rfl, hsave⟩ | ⟨c', es₁, es₂, rfl, hsave, hf⟩
  · rcases save_runs hsave with ⟨rfl, ho⟩ | ⟨reason, rfl, -⟩
    · cases ho
    · exact .inr ⟨rfl, e, rfl⟩
  · rcases save_runs hsave with ⟨rfl, ho⟩ | ⟨_, -, ho⟩
    · cases ho
      exact .inl ⟨by simp [firstSaved?, Event.saved?], es₂, hf⟩
    · cases ho

end Cache

end CandyDrop
