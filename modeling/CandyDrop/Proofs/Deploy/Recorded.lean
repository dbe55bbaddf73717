import CandyDrop.Proofs.Cache.RoundTrip
import CandyDrop.Proofs.Deploy.Stages
import CandyDrop.Proofs.Rehearsal.Transcript

/-!
# Whether a deployed machine is recorded

A deployment pays for its machine before it looks at the record that is to name it. From then on
only that look decides: if what is read is a record, or nothing is there, the file names the machine
however the deployment ends, and if it is anything else, the machine is lost with its key
(`Deploy.created_recorded_or_lost`).
-/

namespace CandyDrop

namespace Deploy

open Script CollectionMint

variable {w w' : World} {es : List Event} {payer machine : Address} {place : CachePlace}
  {choice : CollectionChoice} {config : Config} {now : Int} {record : Content}
  {o : Except Failure Address}

/-- Recording a machine creates none. -/
theorem recordAndSet_accepted {steps : String} {mint : Option Address}
    (hw : w.Follows place.path es w')
    (h : (recordAndSet payer machine place steps mint).Runs es o) :
    ∃ ts, w'.accepted = w.accepted ++ ts ∧ ∀ t ∈ ts, t.createdMachines = [] := by
  rcases recordAndSet_runs hw h with rfl | ⟨c, -, hsettled⟩
  · exact ⟨[], by simp, by simp⟩
  · obtain ⟨sent, ts, -, haccepted, hnone⟩ := hsettled.sends
    exact ⟨ts, haccepted, fun t ht => (hnone t (List.mem_append_right _ ht)).2⟩

/-- If there is a new machine, the first half of the deployment created it, and the second half was
to record it. -/
theorem stages_of_created (hrun : (run payer now config place choice).Runs es o)
    (hw : (World.start record).Follows place.path es w)
    (hcreated : Accepted.Created w.accepted machine) :
    ∃ mint t es₁ es₂, es = es₁ ++ es₂ ∧
      (prepare payer now config choice).Runs es₁ (.ok (mint, machine)) ∧
      (recordAndSet payer machine place (if mint.isSome then "2" else "1") mint).Runs es₂ o ∧
      ((World.start record).sends [t] [t]).Follows place.path es₂ w := by
  rw [run_eq_prepare_bind] at hrun
  obtain ⟨t, ht, hmachine⟩ := hcreated
  rcases hw.stages hrun with ⟨_, -, h₁⟩ | ⟨⟨mint, m⟩, es₁, es₂, v, rfl, h₁, hv, h₂, hw₂⟩
  · rcases prepare_runs hw h₁ with ⟨_, _, _, ho, -⟩ | ⟨_, sent, -, -, rfl⟩
    · cases ho
    · cases ht
  rcases prepare_runs hv h₁ with ⟨_, _, t₁, ho, hcreates, rfl⟩ | ⟨_, _, ho, -⟩
  · cases ho
    obtain ⟨ts, haccepted, hnone⟩ := recordAndSet_accepted hw₂ h₂
    have hm : machine = m := by
      rw [haccepted] at ht
      rcases List.mem_append.1 ht with ht | ht
      · obtain rfl : t = t₁ := List.mem_singleton.1 ht
        rw [hcreates.createdMachines] at hmachine
        exact List.mem_singleton.1 hmachine
      · rw [hnone t ht] at hmachine
        cases hmachine
    subst hm
    exact ⟨mint, t₁, es₁, es₂, rfl, h₁, h₂, hw₂⟩
  · cases ho

/-- **A machine that a deployment created is recorded, unless the record cannot be loaded.** After
the transaction that creates the machine is accepted, the file of the record is read. If it is
missing or holds a record, whichever machine that may name, the file names the new machine in the
end, whatever is answered from then on and however the deployment ends. If it cannot be opened or
holds no record, the deployment fails with this fault, and the file stays as it was and knows
nothing of the machine.

Every write is taken to succeed. -/
theorem created_recorded_or_lost (hrun : (run payer now config place choice).Runs es o)
    (hw : (World.start record).Follows place.path es w) (hsaves : ∀ e ∈ es, e.saves)
    (hcreated : Accepted.Created w.accepted machine) :
    ∃ content, ⟨.read place.path, content⟩ ∈ es ∧
      ((∃ c, Cache.ofContent place.path place.env place.name true content = .ok c) ∧
          (∃ c', Cache.ofContent place.path place.env place.name true w.record = .ok c' ∧
            c'.program.candyMachine = machine.text) ∨
        ∃ fault, Cache.ofContent place.path place.env place.name true content = .error fault ∧
          o = .error (.cache fault) ∧ w.record = record) := by
  obtain ⟨mint, t, es₁, es₂, rfl, -, h₂, hw₂⟩ := stages_of_created hrun hw hcreated
  obtain ⟨content, hread, hcases⟩ := recordAndSet_cases hw₂ h₂
  refine ⟨content, List.mem_append_right _ hread, ?_⟩
  rcases hcases with ⟨fault, hfault, ho, rfl⟩ | ⟨c, hc, -, ⟨-, hunsaved⟩ | hsettled⟩
  · exact .inr ⟨fault, hfault, ho, rfl⟩
  · exact absurd (fun e he => hsaves e (List.mem_append_right _ he)) hunsaved
  · obtain ⟨c', hrecord, hnames⟩ := hsettled.candyMachine rfl
    refine .inl ⟨⟨c, hc⟩, { c' with path := place.path }, ?_, hnames⟩
    rw [hrecord, Cache.ofContent, Cache.ofBytes?_render]

end Deploy

/-- A ledger with a file in the place of the record. -/
def Sample.ledgerWith (record : Bytes) : Ledger :=
  { Ledger.blank with
    keys := 1
    files := ⟨[([".cache"], .folder), ([".cache", "devnet-temp.json"], .file record)]⟩ }

/-- What stands in a file that is no record. -/
def Sample.spoiled : Bytes := Bytes.ofText "?"

/-- A file that is no record is enough to lose a machine. -/
theorem Deploy.created_recorded_or_lost_spoiled :
    ∃ es w fault, Sample.deploy.Runs es (.error (.cache fault)) ∧
      (World.start (.bytes Sample.spoiled)).Follows Sample.place.path es w ∧
      (∀ e ∈ es, e.saves) ∧ Accepted.Created w.accepted (Ledger.newKey 1) ∧
      w.record = .bytes Sample.spoiled := by
  have hrun := Ledger.runs_transcript Sample.deploy (Sample.ledgerWith Sample.spoiled)
  have hchecks :
      let es := (Ledger.transcript Sample.deploy (Sample.ledgerWith Sample.spoiled)).1
      let w := (World.start (.bytes Sample.spoiled)).after Sample.place.path es
      (World.start (.bytes Sample.spoiled)).permitsAll Sample.place.path es = true ∧
      (∀ e ∈ es, e.saves) ∧ Accepted.Created w.accepted (Ledger.newKey 1) ∧
      (Cache.ofContent Sample.place.path Sample.place.env Sample.place.name true
        w.record).isOk = false := by decide +kernel
  obtain ⟨hpermits, hsaves, hcreated, hmalformed⟩ := hchecks
  have hworld := World.follows_after hpermits
  obtain ⟨content, -, ⟨-, c, hc, -⟩ | ⟨fault, -, ho, hrecord⟩⟩ :=
    Deploy.created_recorded_or_lost hrun hworld hsaves hcreated
  · rw [hc] at hmalformed
    cases hmalformed
  · rw [ho] at hrun
    exact ⟨_, _, fault, hrun, hworld, hsaves, hcreated, hrecord⟩

end CandyDrop
