import CandyDrop.Proofs.Cluster.World
import CandyDrop.Proofs.Script.Runs

/-!
# When files cannot be written

A file that a script writes may turn out not to be writable, and what the script then does may depend
on this. `Script.Unaffected R s s'` says that it does not, as far as requests go: `s` and `s'` make
the same requests with the same answers, whatever comes of the files that are written in either of
them, and they end with values that `R` relates. So a transcript of `s` in which other writes go
wrong is one of `s'` (`Unaffected.runs`). Of a script and itself, this says that its requests do not
depend on the writes.
-/

namespace CandyDrop

namespace Event

/-- The event, but the file is written if one was to be. -/
def mended : Event → Event
  | ⟨.write path text, _⟩ => ⟨.write path text, none⟩
  | e => e

/-- Why a file could not be written. -/
def saveFault? : Event → Option String
  | ⟨.write _ _, fault⟩ => fault
  | _ => none

theorem saves_eq_isNone (e : Event) : e.saves = e.saveFault?.isNone := by
  obtain ⟨r, a⟩ := e
  cases r with
  | write path text => cases a <;> rfl
  | _ => rfl

@[simp] theorem request_mended (e : Event) : e.mended.request = e.request := by
  obtain ⟨r, a⟩ := e
  cases r <;> rfl

@[simp] theorem mended_mended (e : Event) : e.mended.mended = e.mended := by
  obtain ⟨r, a⟩ := e
  cases r <;> rfl

theorem eq_of_mended {r : Request} {a b : r.Answer} (h : mended ⟨r, a⟩ = mended ⟨r, b⟩)
    (hr : ∀ path text, r ≠ .write path text) : a = b := by
  cases r with
  | write path text => exact absurd rfl (hr path text)
  | _ => exact eq_of_heq (Event.mk.inj h).2

end Event

/-- The transcripts differ at most in which of the files could be written, and why not. -/
def DifferInWrites (es es' : List Event) : Prop := es'.map Event.mended = es.map Event.mended

/-- The transcript in which every file could be written. -/
theorem differInWrites_mended (es : List Event) : DifferInWrites es (es.map Event.mended) := by
  simp [DifferInWrites, Function.comp_def]

namespace Script

variable {α β γ δ : Type} {R : α → β → Prop} {S : γ → δ → Prop} {s : Script α} {s' : Script β}

/-- The scripts make the same requests, whichever of their files can be written, and end with values
that `R` relates. -/
inductive Unaffected (R : α → β → Prop) : Script α → Script β → Prop
  | done {x : α} {y : β} (h : R x y) : Unaffected R (done x) (done y)
  | ask {r : Request} {next : r.Answer → Script α} {next' : r.Answer → Script β}
      (h : ∀ a b, Event.mended ⟨r, a⟩ = Event.mended ⟨r, b⟩ → Unaffected R (next a) (next' b)) :
      Unaffected R (ask r next) (ask r next')

theorem unaffected_ask {r : Request} {next : r.Answer → Script α} {next' : r.Answer → Script β}
    (hr : ∀ path text, r ≠ .write path text) (h : ∀ a, Unaffected R (next a) (next' a)) :
    Unaffected R (ask r next) (ask r next') :=
  .ask fun a _ hab => Event.eq_of_mended hab hr ▸ h a

theorem unaffected_write {path text : String} {next : Option String → Script α}
    {next' : Option String → Script β} (h : ∀ a b, Unaffected R (next a) (next' b)) :
    Unaffected R (ask (.write path text) next) (ask (.write path text) next') :=
  .ask fun a b _ => h a b

theorem Unaffected.bind {f : α → Script γ} {g : β → Script δ} (hs : Unaffected R s s')
    (hf : ∀ x y, R x y → Unaffected S (f x) (g y)) : Unaffected S (s >>= f) (s' >>= g) := by
  induction hs with
  | done h => exact hf _ _ h
  | ask _ ih => exact .ask ih

/-- **A script that is not affected** can be given the answers of the other one, and other files that
cannot be written, and then does the same. -/
theorem Unaffected.runs (hs : Unaffected R s s') {es es' : List Event} {o : Except Failure α}
    (hrun : s.Runs es o) (hes : DifferInWrites es es') :
    ∃ x y, o = .ok x ∧ s'.Runs es' (.ok y) ∧ R x y := by
  induction hs generalizing es es' with
  | done h =>
    obtain ⟨rfl, rfl⟩ := runs_done_iff.1 hrun
    obtain rfl := List.map_eq_nil_iff.1 hes
    exact ⟨_, _, rfl, .done _, h⟩
  | ask _ ih =>
    obtain ⟨a, fs, rfl, hnext⟩ := runs_ask_iff.1 hrun
    obtain ⟨e, fs', rfl, he, hfs⟩ := List.map_eq_cons_iff.1 hes
    obtain ⟨r', b⟩ := e
    obtain rfl : r' = _ := by simpa using congrArg Event.request he
    obtain ⟨x, y, rfl, hruns, h⟩ := ih a b he.symm hnext hfs
    exact ⟨x, y, rfl, .ask hruns, h⟩

end Script

end CandyDrop
