import CandyDrop.Script

/-!
# Runs of a script

What a script does depends on the answers to its requests, and nothing is known of them here. A
*transcript* is a list of requests with their answers, and `Runs s es o` says that with the answers
of `es` the script `s` makes the requests of `es`, in this order and no others, and ends with `o`.

A run of a script in stages is a run of each stage after the other, unless one of them fails
(`runs_bind_iff`, `runs_bind_ok_iff`). `Only P Q s` says that every request that `s` can make
satisfies `P` and every failure `Q`; it is read off the script, and then holds of every transcript
(`Runs.forall_request`, `Runs.of_error`). Likewise `Succeeds P s` says that `s` does not fail if all
answers satisfy `P` (`Runs.exists_ok`), and `Yields P Q s` that its value then satisfies `Q`
(`Runs.exists_of_yields`).
-/

namespace CandyDrop

/-! ## Values that may be missing for a reason -/

section

variable {α β ε ε' : Type} {x : Except ε α} {f : α → Except ε β} {g : ε → ε'}

theorem exists_eq_ok_of_isOk (h : x.isOk = true) : ∃ a, x = .ok a := by
  cases x with
  | error e => cases h
  | ok a => exact ⟨a, rfl⟩

theorem exists_eq_error_of_isOk (h : x.isOk = false) : ∃ e, x = .error e := by
  cases x with
  | error e => exact ⟨e, rfl⟩
  | ok a => cases h

theorem except_bind_eq_ok_iff {y : β} : x >>= f = .ok y ↔ ∃ a, x = .ok a ∧ f a = .ok y := by
  cases x with
  | ok a => simp [bind, Except.bind]
  | error e => simp [bind, Except.bind]

theorem except_bind_eq_error_iff {e : ε} :
    x >>= f = .error e ↔ x = .error e ∨ ∃ a, x = .ok a ∧ f a = .error e := by
  cases x with
  | ok a => simp [bind, Except.bind]
  | error e' => simp [bind, Except.bind]

theorem mapError_eq_ok_iff {a : α} : x.mapError g = .ok a ↔ x = .ok a := by
  cases x with
  | ok b => exact ⟨fun h => congrArg _ (Except.ok.inj h), fun h => congrArg _ (Except.ok.inj h)⟩
  | error e => exact ⟨nofun, nofun⟩

theorem mapError_eq_error_iff {e : ε'} :
    x.mapError g = .error e ↔ ∃ e', x = .error e' ∧ e = g e' := by
  cases x with
  | ok b => exact ⟨nofun, nofun⟩
  | error e' =>
    constructor
    · intro h
      exact ⟨e', rfl, (Except.error.inj h).symm⟩
    · rintro ⟨_, ⟨⟩, rfl⟩
      rfl

end

/-- A request and the answer to it. -/
structure Event where
  request : Request
  answer : request.Answer

namespace Script

variable {α β γ : Type}

/-! ## Scripts are a lawful monad -/

@[simp] theorem pure_eq_done (x : α) : (pure x : Script α) = done x := rfl

@[simp] theorem done_bind (x : α) (f : α → Script β) : done x >>= f = f x := rfl

@[simp] theorem fail_bind (e : Failure) (f : α → Script β) : fail e >>= f = fail e := rfl

@[simp] theorem ask_bind (r : Request) (next : r.Answer → Script α) (f : α → Script β) :
    ask r next >>= f = ask r fun a => next a >>= f := rfl

theorem bind_done (s : Script α) : s >>= done = s := by
  induction s with
  | done x => rfl
  | fail e => rfl
  | ask r next ih =>
    rw [ask_bind]
    exact congrArg (ask r) (funext ih)

theorem bind_assoc (s : Script α) (f : α → Script β) (g : β → Script γ) :
    s >>= f >>= g = s >>= fun x => f x >>= g := by
  induction s with
  | done x => rfl
  | fail e => rfl
  | ask r next ih =>
    simp only [ask_bind]
    exact congrArg (ask r) (funext ih)

instance : LawfulMonad Script := LawfulMonad.mk' Script bind_done (fun _ _ => rfl) bind_assoc

/-! ## Runs -/

/-- With the answers of a transcript, the script makes its requests and ends in this way. -/
inductive Runs : Script α → List Event → Except Failure α → Prop
  | done (x : α) : Runs (done x) [] (.ok x)
  | fail (e : Failure) : Runs (fail e) [] (.error e)
  | ask {r : Request} {next : r.Answer → Script α} {a : r.Answer} {es : List Event}
      {o : Except Failure α} (h : Runs (next a) es o) : Runs (ask r next) (⟨r, a⟩ :: es) o

@[simp] theorem runs_done_iff {x : α} {es : List Event} {o : Except Failure α} :
    Runs (done x) es o ↔ es = [] ∧ o = .ok x := by
  constructor
  · intro h
    cases h
    exact ⟨rfl, rfl⟩
  · rintro ⟨rfl, rfl⟩
    exact .done x

@[simp] theorem runs_fail_iff {e : Failure} {es : List Event} {o : Except Failure α} :
    Runs (fail e) es o ↔ es = [] ∧ o = .error e := by
  constructor
  · intro h
    cases h
    exact ⟨rfl, rfl⟩
  · rintro ⟨rfl, rfl⟩
    exact .fail e

theorem runs_ask_iff {r : Request} {next : r.Answer → Script α} {es : List Event}
    {o : Except Failure α} :
    Runs (ask r next) es o ↔ ∃ a es', es = ⟨r, a⟩ :: es' ∧ Runs (next a) es' o := by
  constructor
  · intro h
    cases h with
    | ask h => exact ⟨_, _, rfl, h⟩
  · rintro ⟨a, es', rfl, h⟩
    exact .ask h

theorem runs_request_iff {r : Request} {es : List Event} {o : Except Failure r.Answer} :
    Runs (request r) es o ↔ ∃ a, es = [⟨r, a⟩] ∧ o = .ok a := by
  rw [request, runs_ask_iff]
  constructor
  · rintro ⟨a, es', rfl, h⟩
    obtain ⟨rfl, rfl⟩ := runs_done_iff.1 h
    exact ⟨a, rfl, rfl⟩
  · rintro ⟨a, rfl, rfl⟩
    exact ⟨a, [], rfl, .done a⟩

theorem runs_ofExcept_iff {ε : Type} {failure : ε → Failure} {x : Except ε α} {es : List Event}
    {o : Except Failure α} :
    Runs (ofExcept failure x) es o ↔ es = [] ∧ o = x.mapError failure := by
  cases x <;> exact Iff.rfl.trans (by first | exact runs_done_iff | exact runs_fail_iff)

/-- A request whose answer decides how the script ends. -/
theorem runs_ask_ofExcept_iff {ε : Type} {failure : ε → Failure} {r : Request}
    {g : r.Answer → Except ε α} {es : List Event} {o : Except Failure α} :
    Runs (ask r fun a => ofExcept failure (g a)) es o ↔
      ∃ a, es = [⟨r, a⟩] ∧ o = (g a).mapError failure := by
  refine runs_ask_iff.trans (exists_congr fun a => ?_)
  constructor
  · rintro ⟨es', rfl, h⟩
    obtain ⟨rfl, rfl⟩ := runs_ofExcept_iff.1 h
    exact ⟨rfl, rfl⟩
  · rintro ⟨rfl, rfl⟩
    exact ⟨[], rfl, runs_ofExcept_iff.2 ⟨rfl, rfl⟩⟩

theorem runs_submit_iff {t : Transaction} {es : List Event} {o : Except Failure Signature} :
    Runs (submit t) es o ↔ ∃ answer, es = [⟨.submit t, answer⟩] ∧ o = answer.mapError .cluster :=
  runs_ask_ofExcept_iff

theorem runs_rent_iff {size : UInt64} {es : List Event} {o : Except Failure UInt64} :
    Runs (rent size) es o ↔ ∃ answer, es = [⟨.rent size, answer⟩] ∧ o = answer.mapError .cluster :=
  runs_ask_ofExcept_iff

theorem runs_balance_iff {a : Address} {es : List Event} {o : Except Failure UInt64} :
    Runs (balance a) es o ↔ ∃ answer, es = [⟨.balance a, answer⟩] ∧ o = answer.mapError .cluster :=
  runs_ask_ofExcept_iff

/-- A run of a script in two stages fails in the first one or goes through both. -/
theorem runs_bind_iff {s : Script α} {f : α → Script β} {es : List Event} {o : Except Failure β} :
    Runs (s >>= f) es o ↔ (∃ e, o = .error e ∧ Runs s es (.error e)) ∨
      ∃ x es₁ es₂, es = es₁ ++ es₂ ∧ Runs s es₁ (.ok x) ∧ Runs (f x) es₂ o := by
  induction s generalizing es with
  | done x =>
    rw [done_bind]
    constructor
    · exact fun h => .inr ⟨x, [], es, rfl, .done x, h⟩
    · rintro (⟨e, -, h⟩ | ⟨y, es₁, es₂, rfl, h, hf⟩)
      · cases h
      · cases h
        exact hf
  | fail e =>
    rw [fail_bind]
    constructor
    · intro h
      cases h
      exact .inl ⟨e, rfl, .fail e⟩
    · rintro (⟨e', rfl, h⟩ | ⟨y, es₁, es₂, -, h, -⟩)
      · cases h
        exact .fail e
      · cases h
  | ask r next ih =>
    rw [ask_bind, runs_ask_iff]
    constructor
    · rintro ⟨a, es', rfl, h⟩
      obtain ⟨e, rfl, h₁⟩ | ⟨x, es₁, es₂, rfl, h₁, hf⟩ := (ih a).1 h
      · exact .inl ⟨e, rfl, .ask h₁⟩
      · exact .inr ⟨x, ⟨r, a⟩ :: es₁, es₂, rfl, .ask h₁, hf⟩
    · rintro (⟨e, rfl, h⟩ | ⟨x, es₁, es₂, rfl, h, hf⟩)
      · cases h with
        | ask h => exact ⟨_, _, rfl, (ih _).2 (.inl ⟨e, rfl, h⟩)⟩
      · cases h with
        | ask h => exact ⟨_, _, rfl, (ih _).2 (.inr ⟨x, _, _, rfl, h, hf⟩)⟩

theorem runs_bind_ok_iff {s : Script α} {f : α → Script β} {es : List Event} {y : β} :
    Runs (s >>= f) es (.ok y) ↔
      ∃ x es₁ es₂, es = es₁ ++ es₂ ∧ Runs s es₁ (.ok x) ∧ Runs (f x) es₂ (.ok y) := by
  rw [runs_bind_iff]
  constructor
  · rintro (⟨e, he, -⟩ | h)
    · cases he
    · exact h
  · exact .inr

theorem Runs.bind {s : Script α} {f : α → Script β} {es₁ es₂ : List Event} {x : α}
    {o : Except Failure β} (h : Runs s es₁ (.ok x)) (hf : Runs (f x) es₂ o) :
    Runs (s >>= f) (es₁ ++ es₂) o :=
  runs_bind_iff.2 (.inr ⟨x, es₁, es₂, rfl, h, hf⟩)

theorem runs_say_bind_iff {line : String} {f : Unit → Script β} {es : List Event}
    {o : Except Failure β} :
    Runs (say line >>= f) es o ↔ ∃ es', es = ⟨.say line, ()⟩ :: es' ∧ Runs (f ()) es' o := by
  refine runs_ask_iff.trans ?_
  constructor
  · rintro ⟨_, es', rfl, h⟩
    exact ⟨es', rfl, h⟩
  · rintro ⟨es', rfl, h⟩
    exact ⟨(), es', rfl, h⟩

theorem runs_mapFailure_iff {g : Failure → Failure} {s : Script α} {es : List Event}
    {o : Except Failure α} :
    Runs (s.mapFailure g) es o ↔ ∃ o', o = o'.mapError g ∧ Runs s es o' := by
  induction s generalizing es with
  | done x =>
    rw [mapFailure, runs_done_iff]
    constructor
    · rintro ⟨rfl, rfl⟩
      exact ⟨.ok x, rfl, .done x⟩
    · rintro ⟨o', rfl, h⟩
      cases h
      exact ⟨rfl, rfl⟩
  | fail e =>
    rw [mapFailure, runs_fail_iff]
    constructor
    · rintro ⟨rfl, rfl⟩
      exact ⟨.error e, rfl, .fail e⟩
    · rintro ⟨o', rfl, h⟩
      cases h
      exact ⟨rfl, rfl⟩
  | ask r next ih =>
    rw [mapFailure, runs_ask_iff]
    constructor
    · rintro ⟨a, es', rfl, h⟩
      obtain ⟨o', rfl, h'⟩ := (ih a).1 h
      exact ⟨o', rfl, .ask h'⟩
    · rintro ⟨o', rfl, h⟩
      cases h with
      | ask h => exact ⟨_, _, rfl, (ih _).2 ⟨o', rfl, h⟩⟩

/-- The answers decide how a run ends: of two transcripts of which one continues the other, both
are the same and end in the same way. -/
theorem Runs.eq_of_append {s : Script α} {es es' fs fs' : List Event} {o o' : Except Failure α}
    (h : Runs s es o) (h' : Runs s es' o') (hes : es ++ fs = es' ++ fs') : es = es' ∧ o = o' := by
  induction h generalizing es' with
  | done x => cases h'; exact ⟨rfl, rfl⟩
  | fail e => cases h'; exact ⟨rfl, rfl⟩
  | ask h ih =>
    cases h' with
    | ask h' =>
      simp only [List.cons_append, List.cons.injEq, Event.mk.injEq, heq_eq_eq, true_and] at hes
      obtain ⟨rfl, hes⟩ := hes
      obtain ⟨rfl, rfl⟩ := ih h' hes
      exact ⟨rfl, rfl⟩

/-- What follows on a first stage is a run of the second one. -/
theorem Runs.of_bind {s : Script α} {f : α → Script β} {es₁ es₂ : List Event} {x : α}
    {o : Except Failure β} (h : Runs (s >>= f) (es₁ ++ es₂) o) (hs : Runs s es₁ (.ok x)) :
    Runs (f x) es₂ o := by
  rcases runs_bind_iff.1 h with ⟨e, rfl, hs'⟩ | ⟨y, fs₁, fs₂, hes, hs', hf⟩
  · have heq : es₁ ++ es₂ = es₁ ++ es₂ ++ [] := (List.append_nil _).symm
    cases (hs.eq_of_append hs' heq).2
  · obtain ⟨rfl, hxy⟩ := hs.eq_of_append hs' hes
    cases hxy
    rw [List.append_cancel_left hes]
    exact hf

/-! ## What a script can ask for and fail with -/

/-- Every request that a script can make satisfies `P`, and every failure satisfies `Q`. -/
def Only (P : Request → Prop) (Q : Failure → Prop) : Script α → Prop
  | .done _ => True
  | .fail e => Q e
  | .ask r next => P r ∧ ∀ a, Only P Q (next a)

variable {P P' : Request → Prop} {Q Q' : Failure → Prop}

theorem Only.mono {s : Script α} (hs : Only P Q s) (hP : ∀ r, P r → P' r)
    (hQ : ∀ e, Q e → Q' e) : Only P' Q' s := by
  induction s with
  | done x => trivial
  | fail e => exact hQ e hs
  | ask r next ih => exact ⟨hP r hs.1, fun a => ih a (hs.2 a)⟩

@[simp] theorem only_done (x : α) : Only P Q (done x) := trivial

@[simp] theorem only_fail_iff {e : Failure} : Only P Q (fail e : Script α) ↔ Q e := Iff.rfl

theorem Only.bind {s : Script α} {f : α → Script β} (hs : Only P Q s)
    (hf : ∀ x, Only P Q (f x)) : Only P Q (s >>= f) := by
  induction s with
  | done x => exact hf x
  | fail e => exact hs
  | ask r next ih => exact ⟨hs.1, fun a => ih a (hs.2 a)⟩

theorem only_request {r : Request} (h : P r) : Only P Q (request r) := ⟨h, fun _ => trivial⟩

theorem only_ofExcept {ε : Type} {failure : ε → Failure} {x : Except ε α}
    (h : ∀ e, x = .error e → Q (failure e)) : Only P Q (ofExcept failure x) := by
  cases x with
  | ok x => trivial
  | error e => exact h e rfl

theorem Only.mapFailure {s : Script α} {g : Failure → Failure} (hs : Only P Q s)
    (h : ∀ e, Q e → Q' (g e)) : Only P Q' (s.mapFailure g) := by
  induction s with
  | done x => trivial
  | fail e => exact h e hs
  | ask r next ih => exact ⟨hs.1, fun a => ih a (hs.2 a)⟩

/-- What every request of a script satisfies holds along each of its transcripts. -/
theorem Runs.forall_request {s : Script α} {es : List Event} {o : Except Failure α}
    (h : Runs s es o) (hs : Only P Q s) : ∀ e ∈ es, P e.request := by
  induction h with
  | done x => simp
  | fail e => simp
  | ask h ih =>
    intro e he
    obtain rfl | he := List.mem_cons.1 he
    · exact hs.1
    · exact ih (hs.2 _) e he

/-- What every failure of a script satisfies holds of the one that a run ends with. -/
theorem Runs.of_error {s : Script α} {es : List Event} {e : Failure} (h : Runs s es (.error e))
    (hs : Only P Q s) : Q e := by
  generalize ho : Except.error e = o at h
  induction h with
  | done x => cases ho
  | fail e' =>
    cases ho
    exact hs
  | ask h ih => exact ih (hs.2 _) ho

/-! ## When a script succeeds -/

/-- With answers that all satisfy `P`, the script does not fail. -/
def Succeeds (P : Event → Prop) : Script α → Prop
  | .done _ => True
  | .fail _ => False
  | .ask r next => ∀ a, P ⟨r, a⟩ → Succeeds P (next a)

variable {P : Event → Prop}

theorem Succeeds.bind {s : Script α} {f : α → Script β} (hs : s.Succeeds P)
    (hf : ∀ x, (f x).Succeeds P) : (s >>= f).Succeeds P := by
  induction s with
  | done x => exact hf x
  | fail e => exact hs.elim
  | ask r next ih => exact fun a ha => ih a (hs a ha)

theorem succeeds_request (r : Request) : (request r).Succeeds P := fun _ _ => trivial

theorem Runs.exists_ok {s : Script α} {es : List Event} {o : Except Failure α} (h : s.Runs es o)
    (hs : s.Succeeds P) (hes : ∀ e ∈ es, P e) : ∃ x, o = .ok x := by
  induction h with
  | done x => exact ⟨x, rfl⟩
  | fail e => exact hs.elim
  | ask h ih =>
    rw [List.forall_mem_cons] at hes
    exact ih (hs _ hes.1) hes.2

/-- With answers that all satisfy `P`, the script ends with a value that satisfies `Q`. -/
def Yields (P : Event → Prop) (Q : α → Prop) : Script α → Prop
  | .done x => Q x
  | .fail _ => False
  | .ask r next => ∀ a, P ⟨r, a⟩ → Yields P Q (next a)

variable {Q : α → Prop} {R : β → Prop}

theorem Yields.bind {s : Script α} {f : α → Script β} (hs : s.Yields P Q)
    (hf : ∀ x, Q x → (f x).Yields P R) : (s >>= f).Yields P R := by
  induction s with
  | done x => exact hf x hs
  | fail e => exact hs.elim
  | ask r next ih => exact fun a ha => ih a (hs a ha)

end Script

end CandyDrop
