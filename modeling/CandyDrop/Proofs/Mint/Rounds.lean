import CandyDrop.Proofs.Mint.Round

/-!
# Rounds of minting

Minting a number of items is one round after another until one fails (`Minting.Turns`), and
`mintRounds_runs` reads the rounds off a run. What such a sequence of rounds promises is said in
`Minting.Course`: how many mints are sent at most and after what, which signatures come of it, and
which failure.
-/

namespace CandyDrop.Minting

open Script

variable {payer machine : Address} {n : UInt64} {left : Nat} {es : List Event}
  {o : Except Failure (List Signature)}

/-- A round of a run: its events, and how it ends. -/
structure Turn where
  events : List Event
  ending : Except Failure Signature

/-- Rounds one after another, of `n` rounds of which `left` are left, until one fails. -/
inductive Turns (payer machine : Address) (n : UInt64) :
    (left : Nat) → List Turn → Except Failure (List Signature) → Prop
  | done : Turns payer machine n 0 [] (.ok [])
  | failed {left : Nat} {es : List Event} {cause : Failure}
      (hrun : (mintOne payer machine).Runs es (.error cause)) :
      Turns payer machine n (left + 1) [⟨es, .error cause⟩]
        (.error (.mintRound (n - UInt64.ofNat left) n cause))
  | next {left : Nat} {es : List Event} {signature : Signature} {turns : List Turn}
      {o : Except Failure (List Signature)} (hrun : (mintOne payer machine).Runs es (.ok signature))
      (h : Turns payer machine n left turns o) :
      Turns payer machine n (left + 1) (⟨es, .ok signature⟩ :: turns) (o.map (signature :: ·))

/-- **A run is a sequence of rounds**, the events of one after those of the other. -/
theorem mintRounds_runs (h : (mintRounds payer machine n left).Runs es o) :
    ∃ turns, Turns payer machine n left turns o ∧ es = turns.flatMap Turn.events := by
  induction left generalizing es o with
  | zero =>
    obtain ⟨rfl, rfl⟩ := runs_done_iff.1 h
    exact ⟨[], .done, rfl⟩
  | succ left ih =>
    rcases runs_bind_iff.1 h with ⟨e, rfl, h₁⟩ | ⟨signature, es₁, es₂, rfl, h₁, h₂⟩
    · obtain ⟨o', ho, hrun⟩ := runs_mapFailure_iff.1 h₁
      obtain ⟨cause, rfl, rfl⟩ := mapError_eq_error_iff.1 ho.symm
      exact ⟨_, .failed hrun, by simp⟩
    obtain ⟨o', ho, hrun⟩ := runs_mapFailure_iff.1 h₁
    obtain rfl := mapError_eq_ok_iff.1 ho.symm
    rcases runs_bind_iff.1 h₂ with ⟨e, rfl, hrest⟩ | ⟨rest, es₃, es₄, rfl, hrest, hend⟩
    · obtain ⟨turns, hturns, rfl⟩ := ih hrest
      exact ⟨_, hturns.next hrun, by simp⟩
    · obtain ⟨rfl, rfl⟩ := runs_done_iff.1 hend
      obtain ⟨turns, hturns, rfl⟩ := ih hrest
      exact ⟨_, hturns.next hrun, by simp⟩

namespace Turns

variable {turns : List Turn}

theorem runs (h : Turns payer machine n left turns o) :
    ∀ t ∈ turns, (mintOne payer machine).Runs t.events t.ending := by
  induction h with
  | done => simp
  | failed hrun => simpa using hrun
  | next hrun _ ih => exact List.forall_mem_cons.2 ⟨hrun, ih⟩

theorem length_le (h : Turns payer machine n left turns o) : turns.length ≤ left := by
  induction h with
  | done => simp
  | failed hrun => simp
  | next hrun _ ih => simpa using ih

/-- Only the last round can fail. -/
theorem stops (h : Turns payer machine n left turns o) :
    ∀ t ∈ turns.dropLast, ∃ signature, t.ending = .ok signature := by
  induction h with
  | done => simp
  | failed hrun => simp
  | @next left es signature turns o hrun _ ih =>
    cases turns with
    | nil => simp
    | cons t turns =>
      rw [List.dropLast_cons_cons, List.forall_mem_cons]
      exact ⟨⟨signature, rfl⟩, ih⟩

/-- All rounds succeed, or the last one fails and the number of it is reported. -/
theorem result (h : Turns payer machine n left turns o) :
    (∃ signatures, o = .ok signatures ∧ turns.map Turn.ending = signatures.map .ok ∧
        turns.length = left) ∨
      ∃ before es cause, turns = before ++ [⟨es, .error cause⟩] ∧
        o = .error (.mintRound (n - UInt64.ofNat (left - turns.length)) n cause) := by
  induction h with
  | done => exact .inl ⟨[], rfl, rfl, rfl⟩
  | @failed left es cause hrun => exact .inr ⟨[], es, cause, rfl, by simp⟩
  | @next left es signature turns o hrun _ ih =>
    rcases ih with ⟨signatures, rfl, hmap, hlength⟩ | ⟨before, es', cause, rfl, rfl⟩
    · exact .inl ⟨signature :: signatures, rfl, by simp [hmap], by simp [hlength]⟩
    · refine .inr ⟨⟨es, .ok signature⟩ :: before, es', cause, rfl, ?_⟩
      simp [Except.map]

/-- The signatures that a run ends with are those of the mints that were accepted. -/
theorem mintSignatures_of_ok {signatures : List Signature}
    (h : Turns payer machine n left turns (.ok signatures)) :
    mintSignatures (turns.flatMap Turn.events) = signatures := by
  generalize ho : Except.ok signatures = o at h
  induction h generalizing signatures with
  | done =>
    cases ho
    rfl
  | failed hrun => cases ho
  | @next left es signature turns o hrun _ ih =>
    cases o with
    | error e => cases ho
    | ok rest =>
      cases ho
      rw [List.flatMap_cons, mintSignatures_append, ih rfl,
        (mintOne_runs hrun).mintSignatures_of_ok]
      rfl

theorem countP_sendsMint_le (h : Turns payer machine n left turns o) :
    (turns.flatMap Turn.events).countP Event.sendsMint ≤ left := by
  induction h with
  | done => simp
  | failed hrun =>
    have hle := (mintOne_runs hrun).countP_sendsMint_le
    simp only [List.flatMap_singleton]
    omega
  | next hrun _ ih =>
    rw [List.flatMap_cons, List.countP_append, Nat.add_comm]
    exact Nat.add_le_add ih (mintOne_runs hrun).countP_sendsMint_le

end Turns

/-! ## What a course of rounds promises -/

/-- What is promised of `n` rounds with these events and this ending. -/
structure Course (payer machine : Address) (n : UInt64) (es : List Event)
    (o : Except Failure (List Signature)) (turns : List Turn) : Prop where
  /-- The rounds follow one another, and nothing else is asked for. -/
  events : es = turns.flatMap Turn.events
  runs : ∀ t ∈ turns, (mintOne payer machine).Runs t.events t.ending
  length_le : turns.length ≤ n.toNat
  /-- No round follows one that fails. -/
  stops : ∀ t ∈ turns.dropLast, ∃ signature, t.ending = .ok signature
  /-- A round sends a mint only if it has read the machine, and there were items left. -/
  offers : ∀ t ∈ turns, ∀ e ∈ t.events, e.sendsMint = true → ∃ m, Offers machine m t.events
  countP_le : es.countP Event.sendsMint ≤ n.toNat
  ok_iff : ∀ signatures, o = .ok signatures ↔
    turns.length = n.toNat ∧ turns.map Turn.ending = signatures.map .ok
  signatures : ∀ signatures, o = .ok signatures → mintSignatures es = signatures
  error_iff : ∀ e, o = .error e ↔ ∃ t cause i, turns.getLast? = some t ∧
    t.ending = .error cause ∧ i.toNat = turns.length ∧ e = .mintRound i n cause
  message : ∀ e, o = .error e → ∃ t cause, turns.getLast? = some t ∧ t.ending = .error cause ∧
    e.message = "Mint " ++ turns.length.repr ++ " of " ++ n.toNat.repr ++ " failed: " ++
      cause.message

theorem toNat_round {k : Nat} (hk : k ≤ n.toNat) :
    (n - UInt64.ofNat (n.toNat - k)).toNat = k := by
  have hsub : (UInt64.ofNat (n.toNat - k)).toNat = n.toNat - k :=
    UInt64.toNat_ofNat_of_lt' (Nat.lt_of_le_of_lt (Nat.sub_le ..) n.toNat_lt)
  have hle : UInt64.ofNat (n.toNat - k) ≤ n := by
    rw [UInt64.le_iff_toNat_le, hsub]
    omega
  rw [UInt64.toNat_sub_of_le _ _ hle, hsub]
  omega

/-- A run fails with the failure of the last round and its number. -/
theorem Turns.error_iff {turns : List Turn} (h : Turns payer machine n n.toNat turns o)
    (e : Failure) : o = .error e ↔ ∃ t cause i, turns.getLast? = some t ∧
      t.ending = .error cause ∧ i.toNat = turns.length ∧ e = .mintRound i n cause := by
  rcases h.result with ⟨signatures, rfl, hmap, -⟩ | ⟨before, es, cause, hturns, rfl⟩
  · refine iff_of_false nofun ?_
    rintro ⟨t, cause, i, hlast, hend, -⟩
    have hmem : t.ending ∈ signatures.map .ok := by
      rw [← hmap]
      exact List.mem_map_of_mem (List.mem_of_getLast? hlast)
    obtain ⟨_, -, hok⟩ := List.mem_map.1 hmem
    rw [hend] at hok
    cases hok
  · have hlast : turns.getLast? = some ⟨es, .error cause⟩ := by
      rw [hturns, List.getLast?_concat]
    constructor
    · intro heq
      exact ⟨_, cause, _, hlast, rfl, toNat_round h.length_le, (Except.error.inj heq).symm⟩
    · rintro ⟨t, cause', i, hlast', hend, hi, rfl⟩
      rw [hlast] at hlast'
      cases hlast'
      cases hend
      rw [← UInt64.toNat_inj.1 (hi.trans (toNat_round h.length_le).symm)]

/-- A run succeeds if all rounds do, with their signatures. -/
theorem Turns.ok_iff {turns : List Turn} (h : Turns payer machine n left turns o)
    (signatures : List Signature) : o = .ok signatures ↔
      turns.length = left ∧ turns.map Turn.ending = signatures.map .ok := by
  rcases h.result with ⟨signatures', rfl, hmap, hlength⟩ | ⟨before, es, cause, rfl, rfl⟩
  · rw [hmap, List.map_inj_right fun _ _ => Except.ok.inj, Except.ok.injEq]
    exact ⟨fun heq => ⟨hlength, heq⟩, And.right⟩
  · refine iff_of_false nofun fun ⟨_, hmap⟩ => ?_
    have hmem : (.error cause : Except Failure Signature) ∈ signatures.map .ok := by
      rw [← hmap]
      simp
    obtain ⟨_, -, hok⟩ := List.mem_map.1 hmem
    cases hok

theorem Turns.course {turns : List Turn} (h : Turns payer machine n n.toNat turns o) :
    Course payer machine n (turns.flatMap Turn.events) o turns where
  events := rfl
  runs := h.runs
  length_le := h.length_le
  stops := h.stops
  offers := fun t ht _ he hsends => (mintOne_runs (h.runs t ht)).offers_of_sendsMint he hsends
  countP_le := h.countP_sendsMint_le
  ok_iff := h.ok_iff
  signatures := by
    rintro signatures rfl
    exact h.mintSignatures_of_ok
  error_iff := h.error_iff
  message := by
    intro e he
    obtain ⟨t, cause, i, hlast, hend, hi, rfl⟩ := (h.error_iff e).1 he
    refine ⟨t, cause, hlast, hend, ?_⟩
    rw [← hi]
    rfl

/-- Every run is such a course. -/
theorem mintMany_course_of_runs (h : (mintMany payer machine n).Runs es o) :
    ∃ turns, Turns payer machine n n.toNat turns o ∧ Course payer machine n es o turns := by
  obtain ⟨turns, hturns, rfl⟩ := mintRounds_runs h
  exact ⟨turns, hturns, hturns.course⟩

end CandyDrop.Minting
