import CandyDrop.Proofs.Mint.Transaction

/-!
# A round of minting

A round reads the account of the machine, and if there are items left, it sends one transaction that
mints, and after that at most one more, which takes back what was approved for the mint. So there
are five ways for a round to go, which `Minting.Round` lists; `mintOne_runs` says that there are no
others. The last of them is the one to beware of: the mint is accepted, but the round fails.
`mintOne_sends` says which transactions these are.
-/

namespace CandyDrop

/-! ## Mints in a transcript -/

namespace Event

/-- Whether a transaction that mints is sent. -/
def sendsMint : Event → Bool
  | ⟨.submit t, _⟩ => t.Mints
  | _ => false

/-- The signature of a transaction that mints, if it is accepted. -/
def signature? : Event → Option Signature
  | ⟨.submit t, .ok signature⟩ => if t.Mints then some signature else none
  | _ => none

end Event

/-- The signatures of the mints that are accepted, in order. -/
def mintSignatures (es : List Event) : List Signature := es.filterMap Event.signature?

theorem mintSignatures_append (es fs : List Event) :
    mintSignatures (es ++ fs) = mintSignatures es ++ mintSignatures fs := List.filterMap_append

theorem mintSignatures_of_quiet {es : List Event} (h : ∀ e ∈ es, e.request.IsQuiet) :
    mintSignatures es = [] := by
  refine List.filterMap_eq_nil_iff.2 fun e he => ?_
  have hquiet := h e he
  obtain ⟨r, answer⟩ := e
  cases r <;> first | rfl | exact hquiet.elim

theorem sendsMint_of_quiet {e : Event} (h : e.request.IsQuiet) : e.sendsMint = false := by
  obtain ⟨r, answer⟩ := e
  cases r <;> first | rfl | exact h.elim

/-! ## Reading a machine -/

namespace Machine

variable {address : Address} {es : List Event}

/-- The machine that an answer shows. -/
def shown (address : Address) : Except ClusterFault (Option Bytes) → Except Failure Machine
  | .error fault => .error (.cluster fault)
  | .ok none => .error (.account (.machineNotFound address))
  | .ok (some bs) => (ofAccount bs).mapError fun e => .account (.layout e)

theorem get_runs_iff {o : Except Failure Machine} :
    (get address).Runs es o ↔
      ∃ answer, es = [⟨.account address, answer⟩] ∧ o = shown address answer := by
  constructor
  · intro h
    obtain ⟨answer, es', rfl, h₁⟩ := Script.runs_ask_iff.1 h
    refine ⟨answer, ?_⟩
    match answer with
    | .error fault =>
      obtain ⟨rfl, rfl⟩ := Script.runs_fail_iff.1 h₁
      exact ⟨rfl, rfl⟩
    | .ok none =>
      obtain ⟨rfl, rfl⟩ := Script.runs_fail_iff.1 h₁
      exact ⟨rfl, rfl⟩
    | .ok (some bs) =>
      obtain ⟨rfl, rfl⟩ := Script.runs_ofExcept_iff.1 h₁
      exact ⟨rfl, rfl⟩
  · rintro ⟨answer, rfl, rfl⟩
    match answer with
    | .error fault => exact .ask (.fail _)
    | .ok none => exact .ask (.fail _)
    | .ok (some bs) => exact .ask (Script.runs_ofExcept_iff.2 ⟨rfl, rfl⟩)

theorem shown_eq_ok_iff {answer : Except ClusterFault (Option Bytes)} {m : Machine} :
    shown address answer = .ok m ↔ ∃ bs, answer = .ok (some bs) ∧ ofAccount bs = .ok m := by
  match answer with
  | .error fault => simp [shown]
  | .ok none => simp [shown]
  | .ok (some bs) => simp [shown, mapError_eq_ok_iff]

theorem remaining_ne_zero_iff {m : Machine} :
    m.remaining ≠ 0 ↔ m.itemsRedeemed < m.data.itemsAvailable := by
  rw [UInt64.lt_iff_toNat_lt]
  unfold remaining
  omega

end Machine

namespace Minting

open Script

variable {payer machine : Address} {m : Machine} {es : List Event}

/-! ## How a round goes -/

/-- How a mint that was prepared is sent: once it is accepted, what was approved is taken back, if
there is anything. -/
inductive Sending (t : Transaction) (revocations : List Instruction) :
    List Event → Except Failure Signature → Prop
  | refused (fault : ClusterFault) :
      Sending t revocations [⟨.submit t, .error fault⟩] (.error (.cluster fault))
  | minted (signature : Signature) (hnone : revocations = []) :
      Sending t revocations [⟨.submit t, .ok signature⟩] (.ok signature)
  | cleaned (signature last : Signature) (hne : revocations ≠ []) :
      Sending t revocations
        [⟨.submit t, .ok signature⟩, ⟨.submit ⟨revocations, []⟩, .ok last⟩] (.ok signature)
  | stranded (signature : Signature) (fault : ClusterFault) (hne : revocations ≠ []) :
      Sending t revocations
        [⟨.submit t, .ok signature⟩, ⟨.submit ⟨revocations, []⟩, .error fault⟩]
        (.error (.cluster fault))

theorem cleanUp_runs {extras : Extras} {o : Except Failure Unit}
    (h : (cleanUp extras).Runs es o) :
    (extras.revocations = [] ∧ es = [] ∧ o = .ok ()) ∨
      extras.revocations ≠ [] ∧ ∃ answer, es = [⟨.submit ⟨extras.revocations, []⟩, answer⟩] ∧
        o = (answer.map fun _ => ()).mapError .cluster := by
  unfold cleanUp at h
  split at h
  · next hnone =>
    obtain ⟨rfl, rfl⟩ := runs_done_iff.1 h
    exact .inl ⟨List.isEmpty_iff.1 hnone, rfl, rfl⟩
  · next hne =>
    refine .inr ⟨by simpa using hne, ?_⟩
    obtain ⟨answer, es', rfl, hend⟩ := runs_ask_iff.1 h
    refine ⟨answer, ?_⟩
    cases answer with
    | error fault =>
      obtain ⟨rfl, rfl⟩ := runs_fail_iff.1 hend
      exact ⟨rfl, rfl⟩
    | ok signature =>
      obtain ⟨rfl, rfl⟩ := runs_done_iff.1 hend
      exact ⟨rfl, rfl⟩

theorem sending_of_runs {t : Transaction} {extras : Extras} {o : Except Failure Signature}
    (h : (Script.submit t >>= fun signature => cleanUp extras >>= fun _ =>
      Script.done signature).Runs es o) : Sending t extras.revocations es o := by
  rcases runs_bind_iff.1 h with ⟨e, rfl, hsubmit⟩ | ⟨signature, es₁, es₂, rfl, hsubmit, h₁⟩
  · obtain ⟨answer, rfl, ho⟩ := runs_submit_iff.1 hsubmit
    obtain ⟨fault, rfl, rfl⟩ := mapError_eq_error_iff.1 ho.symm
    exact .refused fault
  obtain ⟨answer, rfl, ho⟩ := runs_submit_iff.1 hsubmit
  obtain rfl := mapError_eq_ok_iff.1 ho.symm
  rcases runs_bind_iff.1 h₁ with ⟨e, rfl, hclean⟩ | ⟨_, es₃, es₄, rfl, hclean, hend⟩
  · rcases cleanUp_runs hclean with ⟨-, -, ho⟩ | ⟨hne, answer, rfl, ho⟩
    · cases ho
    · cases answer with
      | error fault =>
        cases ho
        exact .stranded signature fault hne
      | ok last => cases ho
  · obtain ⟨rfl, rfl⟩ := runs_done_iff.1 hend
    rcases cleanUp_runs hclean with ⟨hnone, rfl, -⟩ | ⟨hne, answer, rfl, ho⟩
    · exact .minted signature hnone
    · cases answer with
      | error fault => cases ho
      | ok last => exact .cleaned signature last hne

/-- The events begin with the account of the machine, which is there and has items left. -/
def Offers (machine : Address) (m : Machine) (es : List Event) : Prop :=
  ∃ bs rest, es = ⟨.account machine, .ok (some bs)⟩ :: rest ∧ Machine.ofAccount bs = .ok m ∧
    m.itemsRedeemed < m.data.itemsAvailable

/-- How a round can go. -/
inductive Round (payer machine : Address) : List Event → Except Failure Signature → Prop
  /-- Nothing is sent. -/
  | unsent {es : List Event} (e : Failure) (hne : es ≠ [])
      (hquiet : ∀ ev ∈ es, ev.request.IsQuiet) : Round payer machine es (.error e)
  /-- The mint is refused. -/
  | refused {es : List Event} {m : Machine} {t : Transaction} (fault : ClusterFault)
      (hquiet : ∀ ev ∈ es, ev.request.IsQuiet) (hoffers : Offers machine m es) (ht : t.Mints) :
      Round payer machine (es ++ [⟨.submit t, .error fault⟩]) (.error (.cluster fault))
  /-- The mint is accepted, and there is nothing to take back. -/
  | minted {es : List Event} {m : Machine} {t : Transaction} (signature : Signature)
      (hquiet : ∀ ev ∈ es, ev.request.IsQuiet) (hoffers : Offers machine m es) (ht : t.Mints) :
      Round payer machine (es ++ [⟨.submit t, .ok signature⟩]) (.ok signature)
  /-- The mint is accepted, and what was approved is taken back. -/
  | cleaned {es : List Event} {m : Machine} {t u : Transaction} (signature last : Signature)
      (hquiet : ∀ ev ∈ es, ev.request.IsQuiet) (hoffers : Offers machine m es) (ht : t.Mints)
      (hu : u.TakesBack payer) :
      Round payer machine (es ++ [⟨.submit t, .ok signature⟩, ⟨.submit u, .ok last⟩])
        (.ok signature)
  /-- The mint is accepted, but what was approved is not taken back. -/
  | stranded {es : List Event} {m : Machine} {t u : Transaction} (signature : Signature)
      (fault : ClusterFault) (hquiet : ∀ ev ∈ es, ev.request.IsQuiet)
      (hoffers : Offers machine m es) (ht : t.Mints) (hu : u.TakesBack payer)
      (happroves : m.Approves) :
      Round payer machine (es ++ [⟨.submit t, .ok signature⟩, ⟨.submit u, .error fault⟩])
        (.error (.cluster fault))

/-- Once everything is prepared, the mint is sent and what was approved is taken back. -/
theorem Round.of_sending {es₀ : List Event} {t : Transaction} {extras : Extras}
    {o : Except Failure Signature} (hquiet : ∀ ev ∈ es₀, ev.request.IsQuiet)
    (hoffers : Offers machine m es₀) (ht : t.Mints) (hextras : extras.Fits payer m)
    (h : (Script.submit t >>= fun signature => cleanUp extras >>= fun _ =>
      Script.done signature).Runs es o) : Round payer machine (es₀ ++ es) o := by
  cases sending_of_runs h with
  | refused fault => exact .refused fault hquiet hoffers ht
  | minted signature hnone => exact .minted signature hquiet hoffers ht
  | cleaned signature last hne =>
    exact .cleaned signature last hquiet hoffers ht hextras.revokes
  | stranded signature fault hne =>
    exact .stranded signature fault hquiet hoffers ht hextras.revokes (hextras.approves hne)

/-- **The stages of a round.** Either nothing is sent, or a machine with items left is read, a mint
is prepared, and then it is sent and what was approved is taken back. -/
theorem mintOne_stages {o : Except Failure Signature} (h : (mintOne payer machine).Runs es o) :
    (∃ e, o = .error e ∧ es ≠ [] ∧ ∀ ev ∈ es, ev.request.IsQuiet) ∨
      ∃ m read es₁ es₂ t extras, es = (read :: es₁) ++ es₂ ∧ Offers machine m (read :: es₁) ∧
        (∀ ev ∈ read :: es₁, ev.request.IsQuiet) ∧ Prepared payer machine m es₁ t extras ∧
        (Script.submit t >>= fun signature => cleanUp extras >>= fun _ =>
          Script.done signature).Runs es₂ o := by
  rcases runs_bind_iff.1 h with ⟨e, rfl, hget⟩ | ⟨m, es₁, es₂, rfl, hget, h₁⟩
  · obtain ⟨answer, rfl, -⟩ := Machine.get_runs_iff.1 hget
    exact .inl ⟨e, rfl, by simp, by simp [Request.IsQuiet]⟩
  obtain ⟨answer, rfl, hshown⟩ := Machine.get_runs_iff.1 hget
  obtain ⟨bs, rfl, hm⟩ := Machine.shown_eq_ok_iff.1 hshown.symm
  split at h₁
  · obtain ⟨rfl, rfl⟩ := runs_fail_iff.1 h₁
    exact .inl ⟨_, rfl, by simp, by simp [Request.IsQuiet]⟩
  next hleft =>
  rw [mintItem_eq_preparing_bind] at h₁
  rcases runs_bind_iff.1 h₁ with ⟨e, rfl, h₂⟩ | ⟨⟨t, extras⟩, es₃, es₄, rfl, h₂, h₃⟩
  · have hquiet := h₂.forall_request (quiet_preparing payer machine m)
    exact .inl ⟨e, rfl, by simp, List.forall_mem_cons.2 ⟨trivial, hquiet⟩⟩
  · have hquiet := h₂.forall_request (quiet_preparing payer machine m)
    refine .inr ⟨m, _, es₃, es₄, t, extras, rfl, ⟨bs, es₃, rfl, hm, ?_⟩,
      List.forall_mem_cons.2 ⟨trivial, hquiet⟩, prepared_of_runs h₂, h₃⟩
    exact Machine.remaining_ne_zero_iff.1 hleft

/-- **Every round** goes in one of these ways. -/
theorem mintOne_runs {o : Except Failure Signature} (h : (mintOne payer machine).Runs es o) :
    Round payer machine es o := by
  rcases mintOne_stages h with
    ⟨e, rfl, hne, hquiet⟩ | ⟨m, read, es₁, es₂, t, extras, rfl, hoffers, hquiet, hprepared, hends⟩
  · exact .unsent e hne hquiet
  · exact .of_sending hquiet hoffers hprepared.mints hprepared.fits hends

theorem Offers.append (h : Offers machine m es) (fs : List Event) :
    Offers machine m (es ++ fs) := by
  obtain ⟨bs, rest, rfl, hm, hleft⟩ := h
  exact ⟨bs, rest ++ fs, rfl, hm, hleft⟩

/-- **What a round sends.** Nothing, or the transaction that it has prepared for the machine that it
has read, and perhaps the one that takes back what was approved. -/
theorem mintOne_sends {o : Except Failure Signature} (h : (mintOne payer machine).Runs es o) :
    (∀ e ∈ es, e.request.IsQuiet) ∨
      ∃ m es₁ t extras, Offers machine m es ∧ es₁.Sublist es ∧
        Prepared payer machine m es₁ t extras ∧
        ∀ e ∈ es, e.request.IsQuiet ∨ e.request = .submit t ∨
          e.request = .submit ⟨extras.revocations, []⟩ := by
  rcases mintOne_stages h with
    ⟨e, rfl, hne, hquiet⟩ | ⟨m, read, es₁, es₂, t, extras, rfl, hoffers, hquiet, hprepared, hends⟩
  · exact .inl hquiet
  refine .inr ⟨m, es₁, t, extras, hoffers.append es₂,
    (List.sublist_cons_self ..).trans (List.sublist_append_left ..), hprepared, ?_⟩
  have hsubmits : Only (fun r => r = .submit t ∨ r = .submit ⟨extras.revocations, []⟩)
      (fun _ => True)
      (submit t >>= fun signature => cleanUp extras >>= fun _ => done signature) := by
    have hofExcept : ∀ x : Except ClusterFault Signature, Only
        (fun r => r = .submit t ∨ r = .submit ⟨extras.revocations, []⟩) (fun _ => True)
        (ofExcept Failure.cluster x) := fun x => only_ofExcept fun _ _ => trivial
    refine Only.bind ⟨.inl rfl, hofExcept⟩ fun _ => Only.bind ?_ fun _ => only_done _
    unfold cleanUp
    split
    · exact only_done _
    · exact Only.bind ⟨.inr rfl, hofExcept⟩ fun _ => only_done _
  exact List.forall_mem_append.2 ⟨fun e he => .inl (hquiet e he),
    fun e he => .inr (hends.forall_request hsubmits e he)⟩

/-! ## What a round amounts to -/

/-- The events end with a mint that is accepted and a transaction that was to take back what was
approved for it and is refused. -/
def Stranded (payer : Address) (es : List Event) : Prop :=
  ∃ es₀ t signature u fault,
    es = es₀ ++ [⟨.submit t, .ok signature⟩, ⟨.submit u, .error fault⟩] ∧ t.Mints ∧
      u.TakesBack payer

section

variable {fs : List Event} {t : Transaction} {signature : Signature} {fault : ClusterFault}
  {o : Except Failure Signature}

@[simp] theorem signature?_submit_error :
    Event.signature? ⟨.submit t, .error fault⟩ = none := rfl

theorem signature?_submit_ok (ht : t.Mints) :
    Event.signature? ⟨.submit t, .ok signature⟩ = some signature := if_pos ht

theorem signature?_submit_of_not_mints (ht : ¬t.Mints) :
    Event.signature? ⟨.submit t, .ok signature⟩ = none := if_neg ht

theorem mintSignatures_quiet_append (h : ∀ e ∈ es, e.request.IsQuiet) :
    mintSignatures (es ++ fs) = mintSignatures fs := by
  rw [mintSignatures_append, mintSignatures_of_quiet h, List.nil_append]

theorem mem_of_append_eq_concat {α : Type} {l l' k : List α} {a : α} (hne : l' ≠ [])
    (h : l ++ l' = k ++ [a]) : a ∈ l' := by
  have hlast := congrArg List.getLast? h
  rw [List.getLast?_append, List.getLast?_eq_some_getLast hne, Option.some_or,
    List.getLast?_concat] at hlast
  cases hlast
  exact List.getLast_mem hne

/-- Events of which the last one sends nothing are not stranded. -/
theorem not_stranded_of_quiet (pre : List Event) (hne : es ≠ [])
    (h : ∀ ev ∈ es, ev.request.IsQuiet) : ¬Stranded payer (pre ++ es) := by
  rintro ⟨es₀, t, signature, u, fault, heq, -, -⟩
  have hsplit : pre ++ es = es₀ ++ [⟨.submit t, .ok signature⟩] ++ [⟨.submit u, .error fault⟩] := by
    simpa using heq
  exact h _ (mem_of_append_eq_concat hne hsplit)

/-- Events of which the last but one sends nothing are not stranded. -/
theorem not_stranded_concat (pre : List Event) (hne : es ≠ [])
    (h : ∀ ev ∈ es, ev.request.IsQuiet) (e : Event) : ¬Stranded payer (pre ++ (es ++ [e])) := by
  rintro ⟨es₀, t, signature, u, fault, heq, -, -⟩
  have hsplit : pre ++ es ++ [e] =
      es₀ ++ [⟨.submit t, .ok signature⟩] ++ [⟨.submit u, .error fault⟩] := by simpa using heq
  exact h _ (mem_of_append_eq_concat hne (List.append_inj' hsplit rfl).1)

theorem countP_sendsMint_quiet_append (h : ∀ e ∈ es, e.request.IsQuiet) :
    (es ++ fs).countP Event.sendsMint = fs.countP Event.sendsMint := by
  have hzero : es.countP Event.sendsMint = 0 := List.countP_eq_zero.2 fun e he => by
    simp [sendsMint_of_quiet (h e he)]
  rw [List.countP_append, hzero, Nat.zero_add]

/-- A round sends at most one transaction that mints. -/
theorem Round.countP_sendsMint_le (h : Round payer machine es o) :
    es.countP Event.sendsMint ≤ 1 := by
  cases h with
  | unsent e hne hquiet =>
    rw [← List.append_nil es, countP_sendsMint_quiet_append hquiet]
    exact Nat.zero_le 1
  | refused fault hquiet hoffers ht =>
    rw [countP_sendsMint_quiet_append hquiet]
    exact List.countP_le_length
  | minted signature hquiet hoffers ht =>
    rw [countP_sendsMint_quiet_append hquiet]
    exact List.countP_le_length
  | cleaned signature last hquiet hoffers ht hu =>
    rw [countP_sendsMint_quiet_append hquiet]
    simp [Event.sendsMint, ht, hu.not_mints]
  | stranded signature fault hquiet hoffers ht hu happroves =>
    rw [countP_sendsMint_quiet_append hquiet]
    simp [Event.sendsMint, ht, hu.not_mints]

/-- A round sends a mint only if it has found items left. -/
theorem Round.offers_of_sendsMint (h : Round payer machine es o) {e : Event} (he : e ∈ es)
    (hsends : e.sendsMint = true) : ∃ m, Offers machine m es := by
  cases h with
  | unsent _ hne hquiet =>
    rw [sendsMint_of_quiet (hquiet e he)] at hsends
    cases hsends
  | refused fault hquiet hoffers ht => exact ⟨_, hoffers.append _⟩
  | minted signature hquiet hoffers ht => exact ⟨_, hoffers.append _⟩
  | cleaned signature last hquiet hoffers ht hu => exact ⟨_, hoffers.append _⟩
  | stranded signature fault hquiet hoffers ht hu happroves => exact ⟨_, hoffers.append _⟩

/-- A round that succeeds has minted once, and ends with the signature of the mint. -/
theorem Round.mintSignatures_of_ok (h : Round payer machine es (.ok signature)) :
    mintSignatures es = [signature] := by
  cases h with
  | minted _ hquiet hoffers ht =>
    rw [mintSignatures_quiet_append hquiet]
    simp [mintSignatures, signature?_submit_ok ht]
  | cleaned _ last hquiet hoffers ht hu =>
    rw [mintSignatures_quiet_append hquiet]
    simp [mintSignatures, signature?_submit_ok ht, signature?_submit_of_not_mints hu.not_mints]

theorem Offers.ne_nil (h : Offers machine m es) : es ≠ [] := by
  obtain ⟨bs, rest, rfl, -, -⟩ := h
  exact List.cons_ne_nil _ _

/-- A round that fails has minted nothing, unless what was approved is not taken back. -/
theorem Round.mintSignatures_of_error {e : Failure} (h : Round payer machine es (.error e))
    (pre : List Event) :
    mintSignatures es = [] ∧ ¬Stranded payer (pre ++ es) ∨
      (∃ signature, mintSignatures es = [signature]) ∧ Stranded payer (pre ++ es) ∧
        ∃ m, Offers machine m es ∧ m.Approves := by
  cases h with
  | unsent _ hne hquiet =>
    exact .inl ⟨mintSignatures_of_quiet hquiet, not_stranded_of_quiet pre hne hquiet⟩
  | refused fault hquiet hoffers ht =>
    refine .inl ⟨?_, not_stranded_concat pre hoffers.ne_nil hquiet _⟩
    rw [mintSignatures_quiet_append hquiet]
    simp [mintSignatures]
  | stranded signature fault hquiet hoffers ht hu happroves =>
    refine .inr ⟨⟨signature, ?_⟩, ?_, _, hoffers.append _, happroves⟩
    · rw [mintSignatures_quiet_append hquiet]
      simp [mintSignatures, signature?_submit_ok ht]
    · exact ⟨_, _, signature, _, fault, (List.append_assoc ..).symm, ht, hu⟩

end

end Minting

end CandyDrop
