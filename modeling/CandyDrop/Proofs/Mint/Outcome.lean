import CandyDrop.Proofs.Mint.Rounds
import CandyDrop.Proofs.Script.Play
import CandyDrop.Rehearsal.Ledger

/-!
# What comes of minting

How many items are minted in the end. A run that fails says in which round it did, and the rounds
before have minted one item each. The round itself has minted none, unless it is stranded: then its
mint was accepted, and only the approval for it was not taken back (`accepted_of_error`). If nothing
is refused and the machine counts the mints, as many items are minted as are wanted and as there are
(`mintMany_course`).
-/

namespace CandyDrop

/-! ## What the account of a machine shows -/

/-- The items of the machine in an account: how many there are, and how many are redeemed. -/
def Machine.stock? (content : Option Bytes) : Option (Nat × Nat) :=
  (content.bind fun bs => (ofAccount bs).toOption).map fun m =>
    (m.data.itemsAvailable.toNat, m.itemsRedeemed.toNat)

namespace Event

/-- The cluster answers, and does not refuse. -/
def succeeds : Event → Bool
  | ⟨.account _, .error _⟩ => false
  | ⟨.balance _, .error _⟩ => false
  | ⟨.rent _, .error _⟩ => false
  | ⟨.submit _, .error _⟩ => false
  | _ => true

/-- What is read at this address is nothing or a collection. -/
def readsCollection (address : Address) : Event → Bool
  | ⟨.account a, .ok (some bs)⟩ =>
    bs.isEmpty || (Machine.Collection.ofAccount bs).isOk || a != address
  | _ => true

/-- What is read of the account of a machine shows so many items and so many redeemed ones. -/
def showsStock (machine : Address) (available redeemed : Nat) : Event → Bool
  | ⟨.account a, .ok content⟩ =>
    a != machine || Machine.stock? content == some (available, redeemed)
  | _ => true

/-- The cluster answers, and what is read of the collection of the machine is one or nothing. -/
def IsFine (machine : Address) (e : Event) : Prop :=
  e.succeeds = true ∧ e.readsCollection (Address.machineCollection machine).1 = true

instance decidableIsFine (machine : Address) (e : Event) : Decidable (e.IsFine machine) :=
  inferInstanceAs (Decidable (_ ∧ _))

end Event

namespace Minting

open Script

variable {payer machine : Address} {n : UInt64} {left : Nat} {es fs : List Event}

/-! ## What a failure leaves -/

/-- Rounds that succeed mint one item each. -/
theorem length_mintSignatures {turns : List Turn}
    (hruns : ∀ t ∈ turns, (mintOne payer machine).Runs t.events t.ending)
    (hok : ∀ t ∈ turns, ∃ signature, t.ending = .ok signature) :
    (mintSignatures (turns.flatMap Turn.events)).length = turns.length := by
  induction turns with
  | nil => rfl
  | cons t turns ih =>
    rw [List.forall_mem_cons] at hruns hok
    obtain ⟨signature, hend⟩ := hok.1
    have hround := mintOne_runs hruns.1
    rw [hend] at hround
    rw [List.flatMap_cons, mintSignatures_append, hround.mintSignatures_of_ok, List.length_append,
      ih hruns.2 hok.2, List.length_singleton, List.length_cons, Nat.add_comm]

/-- A run that fails in round `i` consists of `i - 1` rounds that mint one item each, and a round that
fails. -/
theorem Course.failing_round {turns : List Turn} {e : Failure}
    (h : Course payer machine n es (.error e) turns) :
    ∃ i cause before last, e = .mintRound i n cause ∧ es = before ++ last ∧
      (mintSignatures before).length + 1 = i.toNat ∧ Round payer machine last (.error cause) := by
  obtain ⟨t, cause, i, hlast, hend, hi, rfl⟩ := (h.error_iff e).1 rfl
  obtain ⟨before, rfl⟩ := List.getLast?_eq_some_iff.1 hlast
  have hstops := h.stops
  rw [List.dropLast_concat] at hstops
  have hruns : ∀ s ∈ before, (mintOne payer machine).Runs s.events s.ending := fun s hs =>
    h.runs s (List.mem_append_left _ hs)
  have hround := mintOne_runs (h.runs t (List.mem_append_right _ List.mem_cons_self))
  rw [hend] at hround
  refine ⟨i, cause, before.flatMap Turn.events, t.events, rfl, ?_, ?_, hround⟩
  · rw [h.events, List.flatMap_append, List.flatMap_singleton]
  · rw [length_mintSignatures hruns hstops, hi, List.length_append, List.length_singleton]

/-- A machine was read from which tokens are approved for the time of a mint. -/
def ReadsApproving (machine : Address) (es : List Event) : Prop :=
  ∃ bs m, ⟨.account machine, .ok (some bs)⟩ ∈ es ∧ Machine.ofAccount bs = .ok m ∧ m.Approves

theorem readsApproving_of_offers {m : Machine} (h : Offers machine m es) (hm : m.Approves) :
    ReadsApproving machine es := by
  obtain ⟨bs, rest, rfl, hread, -⟩ := h
  exact ⟨bs, m, List.mem_cons_self, hread, hm⟩

/-- **What a failure of minting leaves.** A single mint that fails has minted nothing, and if
minting fails in round `i`, exactly `i - 1` mints were accepted, with one exception: the run ends
with a mint that is accepted and a refusal to take back what was approved for it. Then this mint is
there as well, although the failure does not say so, and to mint once more for its sake is to pay
twice. This can only happen with a machine from which tokens are approved for the time of a mint. -/
theorem accepted_of_error (payer machine : Address) :
    (∀ es e, (mintOne payer machine).Runs es (.error e) →
      mintSignatures es = [] ∧ ¬Stranded payer es ∨
        (∃ signature, mintSignatures es = [signature]) ∧ Stranded payer es ∧
          ReadsApproving machine es) ∧
    ∀ n es e, (mintMany payer machine n).Runs es (.error e) →
      ∃ i cause, e = .mintRound i n cause ∧
        ((mintSignatures es).length + 1 = i.toNat ∧ ¬Stranded payer es ∨
          (mintSignatures es).length = i.toNat ∧ Stranded payer es ∧
            ReadsApproving machine es) := by
  constructor
  · intro es e h
    rcases (mintOne_runs h).mintSignatures_of_error [] with
      hnone | ⟨hone, hstranded, m, hm, happroves⟩
    · exact .inl hnone
    · exact .inr ⟨hone, hstranded, readsApproving_of_offers hm happroves⟩
  · intro n es e h
    obtain ⟨turns, -, hcourse⟩ := mintMany_course_of_runs h
    obtain ⟨i, cause, before, last, rfl, rfl, hbefore, hround⟩ := hcourse.failing_round
    refine ⟨i, cause, rfl, ?_⟩
    rw [mintSignatures_append]
    rcases hround.mintSignatures_of_error before with
      ⟨hnone, hnot⟩ | ⟨⟨signature, hone⟩, hstranded, m, hm, happroves⟩
    · refine .inl ⟨?_, hnot⟩
      rw [hnone, List.append_nil, hbefore]
    · obtain ⟨bs, m, hread, hm, happroves⟩ := readsApproving_of_offers hm happroves
      refine .inr ⟨?_, hstranded, bs, m, List.mem_append_right _ hread, hm, happroves⟩
      rw [hone, List.length_append, List.length_singleton, hbefore]

/-! A small machine to try this on. -/

namespace Sample

def wallet : Address := Ledger.newKey 0

def target : Address := Ledger.newKey 2

/-- A machine for three items, to be paid for in this token. -/
def stock (token : Option Address) : Machine where
  authority := wallet
  wallet := wallet
  tokenMint := token
  itemsRedeemed := 0
  data :=
    { shortName := "abcdef"
      price := 1
      symbol := "S"
      sellerFeeBasisPoints := 0
      maxSupply := 0
      isMutable := true
      retainAuthority := true
      goLiveDate := none
      endSettings := none
      creators := []
      hiddenSettings := none
      whitelist := none
      itemsAvailable := 3
      gatekeeper := none }

/-- Answers of a cluster with one machine, which counts its mints. At every other address there is
`content`, and transactions that do not mint are accepted or refused. -/
def answers (m : Machine) (content : Option Bytes) (accepts : Bool) (before : List Event) :
    (r : Request) → r.Answer
  | .account a =>
    let redeemed := UInt64.ofNat (mintSignatures before).length
    .ok (if a = target then some { m with itemsRedeemed := redeemed }.toAccount else content)
  | .submit t =>
    if t.Mints || accepts then .ok ⟨before.length⟩ else .error (.refused "refused")
  | r => (Ledger.handle r Ledger.blank).1

/-- The transcript of minting a number of items with these answers, and how it ends. -/
def minting (number : UInt64) (m : Machine) (content : Option Bytes) (accepts : Bool) :
    List Event × Except Failure (List Signature) :=
  (mintMany wallet target number).play (answers m content accepts) []

theorem runs_minting (number : UInt64) (m : Machine) (content : Option Bytes) (accepts : Bool) :
    (mintMany wallet target number).Runs (minting number m content accepts).1
      (minting number m content accepts).2 := Script.runs_play ..

end Sample

/-- The round in which minting has failed. -/
def failedRound? : Except Failure (List Signature) → Option UInt64
  | .error (.mintRound i _ _) => some i
  | _ => none

theorem exists_of_failedRound? {o : Except Failure (List Signature)} {i : UInt64}
    (h : failedRound? o = some i) : ∃ n cause, o = .error (.mintRound i n cause) := by
  unfold failedRound? at h
  split at h
  · cases h
    exact ⟨_, _, rfl⟩
  · cases h

/-- The approval for the first of two mints is not taken back. -/
theorem accepted_of_error_stranded :
    ∃ es cause, (mintMany Sample.wallet Sample.target 2).Runs es (.error (.mintRound 1 2 cause)) ∧
      (mintSignatures es).length = 1 ∧ Stranded Sample.wallet es := by
  have hrun := Sample.runs_minting 2 (Sample.stock (some Sample.wallet)) none false
  have hchecks :
      let played := Sample.minting 2 (Sample.stock (some Sample.wallet)) none false
      failedRound? played.2 = some 1 ∧ (mintSignatures played.1).length = 1 := by decide +kernel
  obtain ⟨hfailed, hminted⟩ := hchecks
  obtain ⟨n, cause, ho⟩ := exists_of_failedRound? hfailed
  rw [ho] at hrun
  obtain ⟨i, cause', heq, hcases⟩ := (accepted_of_error _ _).2 _ _ _ hrun
  cases heq
  refine ⟨_, cause, hrun, hminted, ?_⟩
  rcases hcases with ⟨hlength, -⟩ | ⟨-, hstranded, -⟩
  · rw [hminted] at hlength
    cases hlength
  · exact hstranded

/-! ## How many items are minted -/

/-- Whenever the account of the machine is read, it shows so many items, of which so many were
redeemed at first, and one more for every mint that was accepted since. -/
def Counts (machine : Address) (available : Nat) : (redeemed : Nat) → List Event → Prop
  | _, [] => True
  | redeemed, e :: es =>
    e.showsStock machine available redeemed = true ∧
      Counts machine available (redeemed + e.signature?.toList.length) es

instance decidableCounts (machine : Address) (available : Nat) :
    (redeemed : Nat) → (es : List Event) → Decidable (Counts machine available redeemed es)
  | _, [] => .isTrue trivial
  | redeemed, e :: es =>
    have := decidableCounts machine available (redeemed + e.signature?.toList.length) es
    inferInstanceAs (Decidable (_ ∧ _))

section

variable {available redeemed : Nat} {m : Machine}

theorem counts_append :
    Counts machine available redeemed (es ++ fs) ↔ Counts machine available redeemed es ∧
      Counts machine available (redeemed + (mintSignatures es).length) fs := by
  induction es generalizing redeemed with
  | nil => simp [Counts, mintSignatures]
  | cons e es ih =>
    have hcount : (mintSignatures (e :: es)).length =
        e.signature?.toList.length + (mintSignatures es).length := by
      cases he : e.signature? <;> simp [mintSignatures, he, Nat.add_comm]
    rw [List.cons_append, Counts, Counts, ih, hcount, Nat.add_assoc, and_assoc]

/-! A round does not fail of itself: if the cluster answers, it mints an item, if there is one. -/

section

variable {P : Event → Prop} (hP : ∀ e, P e → e.request.IsQuiet → e.succeeds = true)
include hP

theorem succeeds_account (a : Address) : (account a).Succeeds P := by
  intro answer h
  cases answer with
  | error fault => cases hP _ h trivial
  | ok content => trivial

theorem succeeds_rent (size : UInt64) : (rent size).Succeeds P := by
  intro answer h
  cases answer with
  | error fault => cases hP _ h trivial
  | ok lamports => trivial

theorem Extras.succeeds_ofMachine (payer : Address) (m : Machine) :
    (ofMachine payer m).Succeeds P := by
  refine Succeeds.bind ?_ fun whitelist => Succeeds.bind ?_ fun token => trivial
  · unfold ofWhitelist
    split
    · trivial
    · split
      · trivial
      · exact (succeeds_request _).bind fun _ => (succeeds_account hP _).bind fun _ => trivial
  · unfold ofToken
    split
    · trivial
    · exact (succeeds_request _).bind fun _ => trivial

end

theorem succeeds_submit (t : Transaction) : (submit t).Succeeds (Event.IsFine machine) := by
  intro answer hfine
  cases answer with
  | error fault => cases hfine.1
  | ok signature => trivial

theorem succeeds_collection :
    (Machine.Collection.get? (Address.machineCollection machine).1).Succeeds
      (Event.IsFine machine) := by
  intro answer hfine
  match answer with
  | .error fault => cases hfine.1
  | .ok none => trivial
  | .ok (some []) => trivial
  | .ok (some (b :: bs)) =>
    have hread : (Machine.Collection.ofAccount (b :: bs)).isOk = true := by
      simpa [Event.readsCollection] using hfine.2
    obtain ⟨c, hc⟩ := exists_eq_ok_of_isOk hread
    change Succeeds _ (Script.ofExcept _ (Machine.Collection.ofAccount (b :: bs)) >>= fun c =>
      done (some c))
    rw [hc]
    trivial

theorem succeeds_mintItem (payer machine : Address) (m : Machine) :
    (mintItem payer machine m).Succeeds (Event.IsFine machine) := by
  have hquiet : ∀ e : Event, e.IsFine machine → e.request.IsQuiet → e.succeeds = true :=
    fun _ h _ => h.1
  refine (succeeds_request _).bind fun mint => (succeeds_rent hquiet _).bind fun rent => ?_
  refine (Extras.succeeds_ofMachine hquiet payer m).bind fun extras => ?_
  refine succeeds_collection.bind fun collection => (succeeds_submit _).bind fun signature => ?_
  refine Succeeds.bind ?_ fun _ => trivial
  unfold cleanUp
  split
  · trivial
  · exact (succeeds_submit _).bind fun _ => trivial

/-- **A round on a cluster that answers** mints an item if there is one left, and else fails for
that reason. -/
theorem mintOne_of_fine {o : Except Failure Signature} (h : (mintOne payer machine).Runs es o)
    (hfine : ∀ e ∈ es, e.IsFine machine) (hcounts : Counts machine available redeemed es) :
    (redeemed < available ∧ ∃ signature, o = .ok signature) ∨
      available ≤ redeemed ∧ mintSignatures es = [] ∧ o = .error (.mint (.soldOut machine)) := by
  rcases runs_bind_iff.1 h with ⟨e, rfl, hget⟩ | ⟨m, es₁, es₂, rfl, hget, h₁⟩
  · obtain ⟨answer, rfl, ho⟩ := Machine.get_runs_iff.1 hget
    have hstock := hcounts.1
    have hanswers := (hfine _ List.mem_cons_self).1
    match answer with
    | .error fault => cases hanswers
    | .ok none => simp [Event.showsStock, Machine.stock?] at hstock
    | .ok (some bs) =>
      obtain ⟨fault, hfault, -⟩ := mapError_eq_error_iff.1 ho.symm
      simp [Event.showsStock, Machine.stock?, hfault, Except.toOption] at hstock
  obtain ⟨answer, rfl, hshown⟩ := Machine.get_runs_iff.1 hget
  obtain ⟨bs, rfl, hm⟩ := Machine.shown_eq_ok_iff.1 hshown.symm
  have hstock : m.data.itemsAvailable.toNat = available ∧ m.itemsRedeemed.toNat = redeemed := by
    simpa [Event.showsStock, Machine.stock?, hm, Except.toOption] using hcounts.1
  split at h₁
  · next hnone =>
    obtain ⟨rfl, rfl⟩ := runs_fail_iff.1 h₁
    refine .inr ⟨?_, rfl, rfl⟩
    unfold Machine.remaining at hnone
    omega
  · next hleft =>
    have hrest : ∀ e ∈ es₂, e.IsFine machine := fun e he => hfine e (List.mem_append_right _ he)
    refine .inl ⟨?_, h₁.exists_ok (succeeds_mintItem payer machine m) hrest⟩
    unfold Machine.remaining at hleft
    omega

/-- So rounds on a cluster that answers mint as many items as are wanted and as there are. -/
theorem Turns.supply {turns : List Turn} {o : Except Failure (List Signature)}
    (h : Turns payer machine n left turns o)
    (hfine : ∀ e ∈ turns.flatMap Turn.events, e.IsFine machine)
    (hcounts : Counts machine available redeemed (turns.flatMap Turn.events)) :
    (mintSignatures (turns.flatMap Turn.events)).length = min left (available - redeemed) ∧
      (left ≤ available - redeemed → ∃ signatures, o = .ok signatures) ∧
      (available - redeemed < left → turns.length = available - redeemed + 1 ∧
        ∃ i, o = .error (.mintRound i n (.mint (.soldOut machine)))) := by
  induction h generalizing redeemed with
  | done =>
    exact ⟨by simp [mintSignatures], fun _ => ⟨[], rfl⟩, fun hlt => absurd hlt (Nat.not_lt_zero _)⟩
  | @failed left es cause hrun =>
    rw [List.flatMap_singleton] at hfine hcounts ⊢
    rcases mintOne_of_fine hrun hfine hcounts with ⟨-, _, ho⟩ | ⟨hsold, hnone, ho⟩
    · cases ho
    · cases ho
      have hzero : available - redeemed = 0 := by omega
      rw [hzero, hnone]
      exact ⟨by simp, fun hle => absurd hle (Nat.not_succ_le_zero _), fun _ => ⟨rfl, _, rfl⟩⟩
  | @next left es signature turns o hrun _ ih =>
    rw [List.flatMap_cons, List.forall_mem_append] at hfine
    rw [List.flatMap_cons, counts_append] at hcounts
    have hone := (mintOne_runs hrun).mintSignatures_of_ok
    rcases mintOne_of_fine hrun hfine.1 hcounts.1 with ⟨hleft, -⟩ | ⟨-, -, ho⟩
    · rw [hone, List.length_singleton] at hcounts
      obtain ⟨hlength, hok, hfails⟩ := ih hfine.2 hcounts.2
      refine ⟨?_, fun hle => ?_, fun hlt => ?_⟩
      · rw [List.flatMap_cons, mintSignatures_append, hone, List.length_append, hlength,
          List.length_singleton]
        omega
      · obtain ⟨signatures, rfl⟩ := hok (by omega)
        exact ⟨_, rfl⟩
      · obtain ⟨hturns, i, rfl⟩ := hfails (by omega)
        refine ⟨?_, i, rfl⟩
        rw [List.length_cons, hturns]
        omega
    · cases ho

/-- **The course of minting `n` items**, whatever is answered.

It comes to an end, and it is a sequence of rounds, each with the events of a single mint, of which
only the last one may fail. A round sends a mint only if it has read the account of the machine just
before and found items left, and no more than `n` mints are sent. The run succeeds exactly if all
`n` rounds do, with the signatures of the mints in order, and else fails with the number of the
round that failed and its message.

If the cluster answers and refuses nothing, the collection of the machine can be read if there is
one, and the account of the machine counts the mints, then as many items are minted as are wanted
and as are left. If fewer are left, the round after the last one of them fails for this reason. -/
theorem mintMany_course (payer machine : Address) (n : UInt64) :
    (∀ answers, ∃ es o, (mintMany payer machine n).Runs es o ∧ AnsweredBy answers es) ∧
    ∀ es o, (mintMany payer machine n).Runs es o → ∃ turns, Course payer machine n es o turns ∧
      ∀ available redeemed, Counts machine available redeemed es →
        (∀ e ∈ es, e.IsFine machine) →
        (mintSignatures es).length = min n.toNat (available - redeemed) ∧
        (n.toNat ≤ available - redeemed → ∃ signatures, o = .ok signatures) ∧
        (available - redeemed < n.toNat → ∃ i, i.toNat = available - redeemed + 1 ∧
          o = .error (.mintRound i n (.mint (.soldOut machine)))) := by
  refine ⟨exists_runs _, fun es o hrun => ?_⟩
  obtain ⟨turns, hturns, hcourse⟩ := mintMany_course_of_runs hrun
  refine ⟨turns, hcourse, fun available redeemed hcounts hfine => ?_⟩
  obtain rfl := hcourse.events
  obtain ⟨hlength, hok, hfails⟩ := hturns.supply hfine hcounts
  refine ⟨hlength, hok, fun hlt => ?_⟩
  obtain ⟨hcount, i, rfl⟩ := hfails hlt
  obtain ⟨t, cause, j, -, -, hj, heq⟩ := (hcourse.error_iff _).1 rfl
  cases heq
  exact ⟨i, hj.trans hcount, rfl⟩

/-- Four items are wanted of a machine for three. -/
theorem mintMany_course_sold_out :
    let run := Sample.minting 4 (Sample.stock none) none true
    (mintMany Sample.wallet Sample.target 4).Runs run.1 run.2 ∧
      (mintSignatures run.1).length = 3 ∧
      run.2 = .error (.mintRound 4 4 (.mint (.soldOut Sample.target))) := by
  intro run
  have hrun : (mintMany Sample.wallet Sample.target 4).Runs run.1 run.2 := Sample.runs_minting ..
  obtain ⟨-, -, hsupply⟩ := (mintMany_course Sample.wallet Sample.target 4).2 _ _ hrun
  have hcounts : Counts Sample.target 3 0 run.1 := by decide +kernel
  have hfine : ∀ e ∈ run.1, e.IsFine Sample.target := by decide +kernel
  obtain ⟨hlength, -, hfails⟩ := hsupply 3 0 hcounts hfine
  obtain ⟨i, hi, ho⟩ := hfails (by decide)
  obtain rfl : i = 4 := UInt64.toNat_inj.1 hi
  exact ⟨hrun, hlength, ho⟩

/-- What is read of the collection of the machine has to be one. If it is anything else, then the
first round fails and nothing is minted from a machine with three items, although the cluster has
answered whatever it was asked. -/
theorem mintMany_unreadable_collection :
    let run := Sample.minting 2 (Sample.stock none) (some [1]) true
    (mintMany Sample.wallet Sample.target 2).Runs run.1 run.2 ∧
      Counts Sample.target 3 0 run.1 ∧ (∀ e ∈ run.1, e.succeeds = true) ∧
      (mintSignatures run.1).length ≠ min 2 (3 - 0) ∧ failedRound? run.2 = some 1 := by
  intro run
  refine ⟨Sample.runs_minting .., ?_⟩
  decide +kernel

end

end Minting

end CandyDrop
