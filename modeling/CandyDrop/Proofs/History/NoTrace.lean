import CandyDrop.Proofs.History.FirstRecord
import CandyDrop.Proofs.History.Sent
import CandyDrop.Proofs.Rehearsal.Transcript

/-!
# Without a machine there is no trace

A command that needs a new machine has nothing to record before there is one. Whatever keeps it from
creating the machine, it fails without having written a file or paid for anything
(`Maker.traceless_of_not_created`), so that it can be run again as if for the first time.
-/

namespace CandyDrop

open Script

variable {path : String} {w v w' : World} {es fs : List Event} {payer : Address}
  {place : CachePlace} {choice : CollectionChoice} {config : Config} {now : Int}
  {record : Content}

/-- On the way from one world to another nothing was accepted and no file was written. -/
structure World.Traceless (w : World) (es : List Event) (w' : World) : Prop where
  accepted : w'.accepted = w.accepted
  record : w'.record = w.record
  unwritten : ∀ e ∈ es, ¬e.request.IsWrite

namespace World

theorem Traceless.trans (h : w.Traceless es v) (h' : v.Traceless fs w') :
    w.Traceless (es ++ fs) w' where
  accepted := h'.accepted.trans h.accepted
  record := h'.record.trans h.record
  unwritten := List.forall_mem_append.2 ⟨h.unwritten, h'.unwritten⟩

theorem Follows.traceless_of_quiet {α : Type} {s : Script α} {o : Except Failure α}
    {Q : Failure → Prop} (hw : w.Follows path es w') (h : s.Runs es o)
    (hs : s.Only Request.IsQuiet Q) : w.Traceless es w' := by
  obtain rfl := hw.eq_of_only h hs
  exact ⟨rfl, rfl, fun e he => (h.forall_request hs e he).not_isWrite⟩

theorem traceless_of_sends {α : Type} {s : Script α} {o : Except Failure α}
    {sent : List Transaction} (h : s.Runs es o) (hs : s.NeverWrites) :
    w.Traceless es (w.sends sent []) where
  accepted := List.append_nil _
  record := rfl
  unwritten := h.forall_request hs

end World

/-- The machine of a run is created, or the run fails without a trace. -/
def CreatesOrStops {α : Type} (w : World) (es : List Event) (o : Except Failure α)
    (w' : World) : Prop :=
  (∃ machine, Accepted.Created w'.accepted machine) ∨ (∃ e, o = .error e) ∧ w.Traceless es w'

theorem Machine.create_createsOrStops {settings : Settings} {details : CollectionDetails}
    {items : UInt64} {o : Except Failure Address} (hw : w.Follows path es w')
    (h : (create payer settings details items).Runs es o) : CreatesOrStops w es o w' := by
  rcases create_runs hw h with ⟨machine, t, -, hcreates, rfl⟩ | ⟨e, sent, rfl, -, -, rfl⟩
  · refine .inl ⟨machine, t, List.mem_append_right _ (List.mem_singleton_self t), ?_⟩
    rw [hcreates.createdMachines]
    exact List.mem_singleton_self machine
  · exact .inr ⟨⟨e, rfl⟩, World.traceless_of_sends h (neverWrites_create ..)⟩

/-- What follows on a machine does not undo it, and nothing follows on a failure. -/
theorem createsOrStops_bind {α β : Type} {s : Script α} {f : α → Script β}
    {o : Except Failure β} (hw : w.Follows path es w') (h : (s >>= f).Runs es o)
    (hs : ∀ {es o v}, w.Follows path es v → s.Runs es o → CreatesOrStops w es o v) :
    CreatesOrStops w es o w' := by
  rcases hw.stages h with ⟨e, rfl, h₁⟩ | ⟨x, es₁, es₂, v, rfl, h₁, hv, -, hw₂⟩
  · exact (hs hw h₁).imp_right fun ⟨_, htrace⟩ => ⟨⟨e, rfl⟩, htrace⟩
  · rcases hs hv h₁ with ⟨machine, t, ht, hmachine⟩ | ⟨⟨_, ho⟩, -⟩
    · exact .inl ⟨machine, t, hw₂.accepted_subset ht, hmachine⟩
    · cases ho

/-- What looks around first creates a machine afterwards or fails without a trace. -/
theorem createsOrStops_of_quiet {α β : Type} {s : Script α} {f : α → Script β}
    {o : Except Failure β} {Q : Failure → Prop} (hw : w.Follows path es w')
    (h : (s >>= f).Runs es o) (hs : s.Only Request.IsQuiet Q)
    (hf : ∀ {x es₁ es₂}, s.Runs es₁ (.ok x) → w.Follows path es₁ w → (f x).Runs es₂ o →
      w.Follows path es₂ w' → CreatesOrStops w es₂ o w') : CreatesOrStops w es o w' := by
  rcases hw.stages h with ⟨e, rfl, h₁⟩ | ⟨x, es₁, es₂, v, rfl, h₁, hv, h₂, hw₂⟩
  · exact .inr ⟨⟨e, rfl⟩, hw.traceless_of_quiet h₁ hs⟩
  · have htrace := hv.traceless_of_quiet h₁ hs
    obtain rfl := hv.eq_of_only h₁ hs
    exact (hf h₁ hv h₂ hw₂).imp_right fun ⟨he, htrace₂⟩ => ⟨he, htrace.trans htrace₂⟩

theorem Script.quiet_say (line : String) : (say line).Quiet := only_request trivial

theorem Deploy.createsOrStops {o : Except Failure Address} (hw : w.Follows place.path es w')
    (h : (run payer now config place choice).Runs es o) : CreatesOrStops w es o w' := by
  rw [run_eq_prepare_bind] at h
  refine createsOrStops_bind hw h fun hw h => ?_
  have hplan : (Script.ofExcept id (plan config choice)).Only Request.IsQuiet fun _ => True :=
    only_ofExcept fun _ _ => trivial
  refine createsOrStops_of_quiet hw h hplan fun _ _ h₁ hw₁ => ?_
  refine createsOrStops_of_quiet hw₁ h₁ (quiet_checkCollection _ _) fun _ _ h₂ hw₂ => ?_
  refine createsOrStops_of_quiet hw₂ h₂ (Settings.quiet_resolve _ _ _) fun _ _ h₃ hw₃ => ?_
  refine createsOrStops_of_quiet hw₃ h₃ (quiet_say _) fun _ _ h₄ hw₄ => ?_
  exact createsOrStops_bind hw₄ h₄ Machine.create_createsOrStops

/-- An upload whose record names no machine needs a new one. -/
theorem Upload.createsOrStops {options : Options} {o : Except Failure Address}
    (hw : w.Follows options.path es w') (h : (run payer now config options).Runs es o)
    (hnames : ∀ c machine, Cache.ofContent options.path options.place.env options.place.name true
      w.record = .ok c → c.machine ≠ .ok (some machine)) : CreatesOrStops w es o w' := by
  rw [run_eq_opening_bind] at h
  refine createsOrStops_bind hw h fun hw h => ?_
  refine createsOrStops_of_quiet hw h (quiet_survey ..) fun {s _ _} hsurvey hw₁ h₂ hw₂ => ?_
  obtain ⟨_, _, _, hsurveyed⟩ := survey_runs hsurvey hw₁
  refine createsOrStops_of_quiet hw₂ h₂ (quiet_say _) fun _ _ h₃ hw₃ => ?_
  refine createsOrStops_bind hw₃ h₃ fun hw h => ?_
  have hquiet : (Script.ofExcept Failure.cache (merge s.plan.items s.cache).machine).Quiet :=
    only_ofExcept fun _ _ => id
  refine createsOrStops_of_quiet hw h hquiet fun hread _ h₄ hw₄ => ?_
  have hmachine := mapError_eq_ok_iff.1 (runs_ofExcept_iff.1 hread).2.symm
  split at h₄
  · exact absurd hmachine (hnames s.cache _ hsurveyed.cache)
  · exact createsOrStops_bind hw₄ h₄ Machine.create_createsOrStops

namespace Maker

/-- **Without a machine there is no trace.** Let a command need a new machine: a deployment always
does, and an upload does if its record names none. If no machine is created, because a check fails,
something cannot be read, the balance is too low, the machine would be too large or the transaction
is refused, then the command fails, no other transaction was accepted either, no file was written,
and the record is what it was or still missing. -/
theorem traceless_of_not_created {o : Except Failure Address} (maker : Maker)
    (hrun : (maker.script payer now config place choice).Runs es o)
    (hw : (World.start record).Follows place.path es w)
    (hnames : maker ≠ deployment → ∀ c machine,
      Cache.ofContent place.path place.env place.name true record = .ok c →
        c.machine ≠ .ok (some machine))
    (hnone : ∀ machine, ¬Accepted.Created w.accepted machine) :
    ∃ e, o = .error e ∧ w.accepted = [] ∧ w.record = record ∧
      ∀ e ∈ es, ¬e.request.IsWrite := by
  have hcases : CreatesOrStops (World.start record) es o w := by
    cases maker with
    | deployment => exact Deploy.createsOrStops hw hrun
    | upload directory rateLimit =>
      let options : Upload.Options := ⟨directory, place, choice, rateLimit⟩
      have hworld : (World.start record).Follows options.path es w := hw
      exact Upload.createsOrStops hworld hrun (hnames nofun)
  rcases hcases with ⟨machine, hcreated⟩ | ⟨⟨e, ho⟩, htrace⟩
  · exact absurd hcreated (hnone machine)
  · exact ⟨e, ho, htrace.accepted, htrace.record, htrace.unwritten⟩

/-- An upload whose transaction for the machine is refused leaves the record, and what it takes for
written, as it was. -/
theorem traceless_of_not_created_refused :
    ∃ es o w e, ((upload "assets" 0).script Sample.payer 0 Sample.config Sample.place
        Sample.choice).Runs es o ∧
      (World.start (.bytes (Bytes.ofText Sample.edited.render))).Follows Sample.place.path es w ∧
      w.sent.length = 1 ∧ o = .error e ∧ w.accepted = [] ∧
      w.record = .bytes (Bytes.ofText Sample.edited.render) := by
  let record := Bytes.ofText Sample.edited.render
  let l : Ledger :=
    { Sample.ledger "A" with
      rules := { FailureRules.none with sends := [1] }
      files := ⟨(Sample.ledger "A").files.nodes ++
        [([".cache"], .folder), ([".cache", "devnet-temp.json"], .file record)]⟩ }
  have hrun := Ledger.runs_transcript Sample.upload l
  have hchecks :
      let es := (Ledger.transcript Sample.upload l).1
      let w := (World.start (.bytes record)).after Sample.place.path es
      (World.start (.bytes record)).permitsAll Sample.place.path es = true ∧
      w.sent.length = 1 ∧ w.accepted = [] := by decide +kernel
  obtain ⟨hpermits, hsent, haccepted⟩ := hchecks
  generalize (Ledger.transcript Sample.upload l).1 = es at *
  have hworld := World.follows_after hpermits
  have hnames : upload "assets" 0 ≠ deployment → ∀ c machine,
      Cache.ofContent Sample.place.path Sample.place.env Sample.place.name true
        (.bytes record) = .ok c → c.machine ≠ .ok (some machine) := by
    intro _ c machine hc
    rw [Cache.ofContent, Cache.ofBytes?_render] at hc
    cases hc
    rw [Upload.machine_eq_none_iff.2 rfl]
    intro h
    cases h
  have hnone : ∀ machine, ¬Accepted.Created
      ((World.start (.bytes record)).after Sample.place.path es).accepted machine := by
    rw [haccepted]
    rintro machine ⟨t, ht, -⟩
    cases ht
  obtain ⟨e, ho, hnothing, hsame, -⟩ :=
    traceless_of_not_created (upload "assets" 0) hrun hworld hnames hnone
  exact ⟨_, _, _, e, hrun, hworld, hsent, ho, hnothing, hsame⟩

end Maker

end CandyDrop
