import CandyDrop.Proofs.Rehearsal.Transcript
import CandyDrop.Proofs.Upload.Coverage
import CandyDrop.Proofs.Upload.Stages

/-!
# When lines are found wanting

The checks of a collection let a manifest without a name pass, and that a line needs one is noticed
only when the lines are cut into batches, which is after the machine was created. So an upload that
fails for the sake of a line has paid for a machine unless one was recorded
(`sent_of_isAboutLines`). Names are the only thing that is missed in this way: every position has
its item (`Ready.lists`), and no link is empty (`Lines.link_ne_empty`).
-/

namespace CandyDrop

/-- The fault of a deployment that ended a run, if one did. -/
def Failure.deployFault? {α : Type} : Except Failure α → Option DeployFault
  | .error (.deploy fault) => some fault
  | _ => none

theorem Failure.of_deployFault? {α : Type} {o : Except Failure α} {fault : DeployFault}
    (h : deployFault? o = some fault) : o = .error (.deploy fault) := by
  unfold deployFault? at h
  split at h
  · cases h
    rfl
  · cases h

namespace Upload

variable {payer : Address} {now : Int} {config : Config} {options : Options} {es : List Event}
  {record : Content} {w w' : World} {s : Survey} {machine : Address} {c : Cache}
  {assets : Assets} {manifests : List Manifest} {lines : List (String × String)}
  {fault : DeployFault} {e : Failure}

/-- If the batches cannot be cut, a line that is still to be written has no name. -/
theorem Ready.batches_error
    (h : Ready config options es w s machine c w' assets manifests lines)
    (hfault : batches s.settings s.plan.count c = .error fault) :
    ∃ i link, fault = .missingName i ∧ (i, "", link) ∈ LineCall.entriesFrom 0 lines ∧
      ¬c.HasWritten (i, "", link) := by
  unfold batches at hfault
  split at hfault
  · cases hfault
  · obtain ⟨i, hi, hitem, -⟩ := Batch.ofItems_eq_error_iff.1 hfault
    have hcount : (UInt64.ofNat s.plan.count).toNat ≤ lines.length := by
      rw [h.surveyed.count, UInt64.toNat_ofNat']
      exact Nat.mod_le _ _
    have hlt : i < lines.length := Nat.lt_of_lt_of_le hi hcount
    obtain ⟨⟨name, link⟩, hmem⟩ := LineCall.exists_mem_entriesFrom hlt
    obtain ⟨onChain, hget⟩ := h.lists _ hmem
    obtain ⟨_, -, hlines⟩ := h.surveyed.found.lines
    have hlink : link ≠ "" := by
      obtain ⟨j, l, hj, heq⟩ := LineCall.mem_entriesFrom_iff.1 hmem
      cases heq
      exact hlines.link_ne_empty _ (List.mem_of_getElem? hj)
    cases hitem with
    | item hnone =>
      rw [hget] at hnone
      cases hnone
    | name hsome hpending hname =>
      obtain rfl := Option.some.inj (hget.symm.trans hsome)
      obtain rfl : name = "" := hname
      refine ⟨i, link, rfl, hmem, fun hwritten => ?_⟩
      rw [hwritten] at hsome
      cases hsome
      cases hpending
    | link hsome hpending hname hnolink =>
      obtain rfl := Option.some.inj (hget.symm.trans hsome)
      exact absurd hnolink hlink

/-- **What an upload has paid for when a line is found wanting.** An upload that fails for the sake
of a line fails because a line that is still to be written has no name. It has sent nothing if and
only if the record named a machine; otherwise it has created one, which was accepted and recorded.

The checks before the cluster is asked were to prevent this, but they only say that a name is not
too long. -/
theorem sent_of_isAboutLines (hrun : (run payer now config options).Runs es (.error e))
    (hworld : (World.start record).Follows options.path es w) (he : e.IsAboutLines) :
    ∃ assets manifests lines recorded i link,
      Found config options es assets manifests lines ∧
      Cache.ofContent options.path options.place.env options.place.name true record =
        .ok recorded ∧
      e = .deploy (.missingName i) ∧ (i, "", link) ∈ LineCall.entriesFrom 0 lines ∧
      (w.sent = [] ↔ recorded.program.candyMachine ≠ "") ∧
      (recorded.program.candyMachine = "" → ∃ t machine c, t.Creates machine ∧
        w.sent = [t] ∧ w.accepted = [t] ∧ w.record = .bytes (Bytes.ofText (Cache.render c)) ∧
        c.machine = .ok (some machine)) := by
  rcases run_cases rfl hworld hrun with ⟨_, _, _, ho, hnot, -⟩ |
    ⟨s, machine, c, fault, assets, manifests, lines, hready, hfault, ho⟩ |
    ⟨p, v, v₁, c, t, assets, manifests, lines, h⟩
  · cases ho
    exact absurd he hnot
  · cases ho
    obtain ⟨i, link, rfl, hmem, -⟩ := hready.batches_error hfault
    refine ⟨assets, manifests, lines, s.cache, i, link, hready.surveyed.found,
      hready.surveyed.cache, rfl, hmem, ?_⟩
    obtain ⟨ts, hsent, haccepted, hopens⟩ := hready.opened.sends
    have hsent : w.sent = ts := hsent
    have haccepted : w.accepted = ts := haccepted
    cases hopens.of_merge with
    | recorded hm =>
      have hnamed : s.cache.program.candyMachine ≠ "" := fun hempty => by
        rw [machine_eq_none_iff.2 hempty] at hm
        cases hm
      exact ⟨iff_of_true hsent hnamed, fun hempty => absurd hempty hnamed⟩
    | @created t hm ht =>
      have hempty := machine_eq_none_iff.1 hm
      have hpaid : w.sent ≠ [] := by
        rw [hsent]
        simp
      refine ⟨iff_of_false hpaid (fun hnamed => hnamed hempty), fun _ => ?_⟩
      exact ⟨t, machine, c, ht, hsent, haccepted, hready.opened.record_eq,
        hready.opened.machine_eq⟩
  · rcases h.ending with ⟨_, ho, hnot, -⟩ | ⟨-, -, -, -, ho | ⟨_, ho, hnot⟩⟩
    · cases ho
      exact absurd he hnot
    · cases ho
    · cases ho
      exact absurd he hnot

/-- A manifest without a name is enough. -/
theorem sent_of_isAboutLines_unnamed :
    ∃ es w, Sample.upload.Runs es (.error (.deploy (.missingName 0))) ∧
      (World.start .missing).Follows Sample.options.path es w ∧
      ∃ t machine, t.Creates machine ∧ w.sent = [t] ∧ w.accepted = [t] := by
  have hrun := Ledger.runs_transcript Sample.upload (Sample.ledger "")
  have hfails : Failure.deployFault? ((Sample.ledger "").run Sample.upload).1 =
      some (.missingName 0) := by decide +kernel
  rw [Failure.of_deployFault? hfails] at hrun
  have hpermits : (World.start .missing).permitsAll Sample.options.path
      (Ledger.transcript Sample.upload (Sample.ledger "")).1 = true := by decide +kernel
  have hworld := World.follows_after hpermits
  obtain ⟨_, _, _, _, _, _, -, hrecorded, -, -, -, hpaid⟩ :=
    sent_of_isAboutLines hrun hworld trivial
  cases hrecorded
  obtain ⟨t, machine, c, ht, hsent, haccepted, -⟩ := hpaid rfl
  exact ⟨_, _, hrun, hworld, t, machine, ht, hsent, haccepted⟩

end Upload

end CandyDrop
