import CandyDrop.Proofs.Upload.Written

/-!
# Resuming an upload

An upload that was interrupted or failed is run again with the same collection until it succeeds.
One run leaves a record of what it did (`Advances`, `run_advances`), the next one goes on from
there, and over all of them every missing entry is accepted exactly once and one machine is created
if none was recorded (`resume_exactly_once`).
-/

namespace CandyDrop.Upload

open Schedule

/-! ## What is left after some entries are done -/

/-- Entries of which some are done are those and the rest. -/
theorem perm_filter_of_append {D R F : List (Nat × String × String)} (h : (D ++ R).Perm F)
    (hnodup : (F.map (·.1)).Nodup) :
    (D ++ F.filter fun e => e.1 ∉ D.map (·.1)).Perm F := by
  have hdisjoint : ∀ e ∈ R, e.1 ∉ D.map (·.1) := by
    have hDR : ((D ++ R).map (·.1)).Nodup := (h.map (·.1)).nodup_iff.2 hnodup
    rw [List.map_append, List.nodup_append] at hDR
    intro e he hmem
    exact hDR.2.2 e.1 hmem e.1 (List.mem_map_of_mem he) rfl
  have hrest : (F.filter fun e => e.1 ∉ D.map (·.1)).Perm R := by
    have hfilter := h.filter fun e => e.1 ∉ D.map (·.1)
    rw [List.filter_append, List.filter_eq_nil_iff.2, List.nil_append,
      List.filter_eq_self.2] at hfilter
    · exact hfilter.symm
    · intro e he
      simpa using hdisjoint e he
    · intro e he
      simpa using ⟨e.2.1, e.2.2, he⟩
  exact (hrest.append_left D).trans h

/-! ## One run -/

/-- The record says that an entry is on the chain, of the machine that it names. -/
def Kept (c : Cache) (e : Nat × String × String) : Prop :=
  c.program.candyMachine ≠ "" ∧ c.HasWritten e

instance (c : Cache) (e : Nat × String × String) : Decidable (Kept c e) :=
  inferInstanceAs (Decidable (_ ∧ _))

variable {c c₁ : Cache} {machine payer : Address} {e : Nat × String × String}

theorem kept_iff (h : c.machine = .ok none ∨ c.machine = .ok (some machine)) :
    Kept c e ↔ c.machine = .ok (some machine) ∧ c.HasWritten e := by
  unfold Kept
  rw [Ne, ← machine_eq_none_iff]
  rcases h with h | h <;> simp [h]

/-- The entries that transactions write, to whichever machine. -/
def written (ts : List Transaction) : List (Nat × String × String) :=
  (ts.flatMap Transaction.lineCalls).flatMap LineCall.entries

/-- What a run that got as far as a machine leaves for the next one: a record with the machine, and
of the missing entries those are pending that were not accepted. -/
structure Advances (c : Cache) (lines : List (String × String)) (w : World) (machine : Address)
    (c₁ : Cache) : Prop where
  record : w.record = .bytes (Bytes.ofText c₁.render)
  machine_eq : c₁.machine = .ok (some machine)
  machine_old : c.machine = .ok none ∨ c.machine = .ok (some machine)
  created : w.accepted.flatMap Transaction.createdMachines =
    if c.program.candyMachine = "" then [machine] else []
  calls : ∀ call ∈ (w.sent ++ w.accepted).flatMap Transaction.lineCalls, call.machine = machine ∧
    ∀ e ∈ call.entries, e ∈ LineCall.entriesFrom 0 lines ∧ ¬Kept c e
  accepted : (written w.accepted ++
      (LineCall.entriesFrom 0 lines).filter fun e => ¬c₁.HasWritten e).Perm
    ((LineCall.entriesFrom 0 lines).filter fun e => ¬Kept c e)

variable {config : Config} {options : Options} {es : List Event} {w v v₁ : World}
  {record : Content} {o : Except Failure Address} {p : Prepared} {t : Tally} {s : Survey}
  {assets : Assets} {manifests : List Manifest} {lines : List (String × String)}

/-- A run that finds a line lacking something leaves all missing entries pending. -/
theorem Ready.advances
    (h : Ready config options es (.start record) s machine c₁ w assets manifests lines) :
    Advances s.cache lines w machine c₁ := by
  obtain ⟨ts, hsent, haccepted, hopens⟩ := h.opened.sends
  have hsent : w.sent = ts := hsent
  have haccepted : w.accepted = ts := haccepted
  have hnone := lineCalls_of_forall_nil hopens.lineCalls
  have hold := hopens.of_merge.machine_old
  exact
    { record := h.opened.record_eq
      machine_eq := h.opened.machine_eq
      machine_old := hold
      created := by rw [haccepted, hopens.of_merge.createdMachines]
      calls := by
        rw [hsent, haccepted, List.flatMap_append, hnone]
        simp
      accepted := by
        rw [haccepted, written, hnone, List.flatMap_nil, List.nil_append]
        refine .of_eq (List.filter_congr fun e he => ?_)
        simp [h.hasWritten_iff he, kept_iff hold] }

section

variable (h : Performed payer config options es (.start record) p v v₁ w o c t assets manifests
  lines)
include h

theorem Performed.machine_old :
    p.survey.cache.machine = .ok none ∨ p.survey.cache.machine = .ok (some p.machine) := by
  obtain ⟨_, _, -, -, -, hopens⟩ := h.accepted_eq
  exact hopens.machine_old

/-- The missing entries are those of the batches. -/
theorem Performed.entries_eq (hlen : lines.length ≤ 2 ^ 32)
    (hhidden : config.hiddenSettings = none) :
    p.batches.flatten.map ConfigLine.entry =
      (LineCall.entriesFrom 0 lines).filter fun e => ¬Kept p.survey.cache e := by
  rw [h.entries_batches hlen hhidden]
  refine List.filter_congr fun e _ => ?_
  simp [kept_iff h.machine_old]

theorem Performed.createdMachines_accepted :
    w.accepted.flatMap Transaction.createdMachines =
      if p.survey.cache.program.candyMachine = "" then [p.machine] else [] := by
  obtain ⟨a₀, a₁, haccepted, -, ha₁, hopens⟩ := h.accepted_eq
  have haccepted : w.accepted =
      a₀ ++ (Batch.transactions payer p.machine t.done ++ a₁) := haccepted
  have hbatches : (Batch.transactions payer p.machine t.done).flatMap
      Transaction.createdMachines = [] := by
    simpa using Batch.createdMachines_transactions payer p.machine t.done
  have hset : a₁.flatMap Transaction.createdMachines = [] := by simpa using ha₁
  rw [haccepted, List.flatMap_append, List.flatMap_append, hbatches, hset, hopens.createdMachines,
    List.append_nil, List.append_nil]

/-- What is accepted are the entries of the batches that are done. -/
theorem Performed.written_accepted (hlen : lines.length ≤ 2 ^ 32) :
    Upload.written w.accepted = t.done.flatten.map ConfigLine.entry := by
  have hdone : ∀ b ∈ t.done, b.Sendable := fun b hb =>
    h.ready.sendable h.batches hlen b (h.mem_batches_of_mem_done b hb)
  rw [Upload.written, h.lineCalls_accepted, show (World.start record).accepted = [] from rfl,
    List.flatMap_nil, List.nil_append, Batch.flatMap_entries_call hdone]

/-- What is sent or accepted are calls of batches. -/
theorem Performed.mem_batches_of_mem_lineCalls {call : LineCall}
    (hcall : call ∈ (w.sent ++ w.accepted).flatMap Transaction.lineCalls) :
    ∃ b ∈ p.batches, Batch.call p.machine b = call := by
  rw [List.flatMap_append, h.lineCalls_sent, h.lineCalls_accepted] at hcall
  have hmem : call ∈ (t.started ++ t.done).map (Batch.call p.machine) := by
    simpa [World.start] using hcall
  obtain ⟨b, hb, rfl⟩ := List.mem_map.1 hmem
  refine ⟨b, ?_, rfl⟩
  rcases List.mem_append.1 hb with hb | hb
  · exact h.written.batches_eq ▸ List.mem_append_left _ hb
  · exact h.mem_batches_of_mem_done b hb

/-- What is written by a call is missing. -/
theorem Performed.calls (hhidden : config.hiddenSettings = none) (hlen : lines.length ≤ 2 ^ 32) :
    ∀ call ∈ (w.sent ++ w.accepted).flatMap Transaction.lineCalls, call.machine = p.machine ∧
      ∀ e ∈ call.entries, e ∈ LineCall.entriesFrom 0 lines ∧ ¬Kept p.survey.cache e := by
  intro call hcall
  obtain ⟨b, hb, rfl⟩ := h.mem_batches_of_mem_lineCalls hcall
  refine ⟨rfl, fun e he => ?_⟩
  rw [Batch.entries_call p.machine (h.ready.sendable h.batches hlen b hb)] at he
  have hmem : e ∈ p.batches.flatten.map ConfigLine.entry := by
    rw [List.map_flatten, List.mem_flatten]
    exact ⟨_, List.mem_map_of_mem hb, he⟩
  rw [h.entries_eq hlen hhidden, List.mem_filter] at hmem
  exact ⟨hmem.1, by simpa using hmem.2⟩

/-- What is pending afterwards are the entries of the batches that were not done. -/
theorem Performed.filter_not_hasWritten (hhidden : config.hiddenSettings = none)
    (hlen : lines.length ≤ 2 ^ 32) :
    (LineCall.entriesFrom 0 lines).filter (fun e => ¬c.HasWritten e) =
      (p.batches.flatten.map ConfigLine.entry).filter fun e =>
        e.1 ∉ (t.done.flatten.map ConfigLine.entry).map (·.1) := by
  have hpositions : (t.done.flatten.map ConfigLine.entry).map (·.1) = positions t.done := by
    rw [List.map_map]
    rfl
  rw [h.ready.entries_flatten h.batches hlen hhidden, List.filter_filter, hpositions]
  refine List.filter_congr fun e he => ?_
  simp [hasWritten_of_marks h.written.marks h.ready.lists he, Bool.and_comm]

/-- **A run that performs its batches** leaves those missing entries pending that were not accepted,
and none if it succeeds. -/
theorem Performed.advances (hsaves : ∀ e ∈ es, e.saves) (hhidden : config.hiddenSettings = none)
    (hlen : lines.length ≤ 2 ^ 32) :
    ∃ c₁, Advances p.survey.cache lines w p.machine c₁ ∧
      ∀ m, o = .ok m → ∀ e ∈ LineCall.entriesFrom 0 lines, c₁.HasWritten e := by
  obtain ⟨c₁, hrecord, hmachine, hitems⟩ := h.exists_record hsaves
  have hsame : ∀ e, c₁.HasWritten e ↔ c.HasWritten e := fun e => by
    unfold Cache.HasWritten
    rw [hitems]
  have haccepted : (Upload.written w.accepted ++
      (LineCall.entriesFrom 0 lines).filter fun e => ¬c₁.HasWritten e).Perm
        ((LineCall.entriesFrom 0 lines).filter fun e => ¬Kept p.survey.cache e) := by
    obtain ⟨rest, hsplit⟩ := h.subperm
    simp only [hsame]
    rw [h.written_accepted hlen, ← h.entries_eq hlen hhidden, h.filter_not_hasWritten hhidden hlen]
    exact perm_filter_of_append hsplit (h.pending hlen).2
  refine ⟨c₁, ?_, ?_⟩
  · exact
      { record := hrecord
        machine_eq := hmachine.trans h.machine_eq
        machine_old := h.machine_old
        created := h.createdMachines_accepted
        calls := h.calls hhidden hlen
        accepted := haccepted }
  · rintro m rfl e he
    rw [hsame]
    rcases h.ending with ⟨_, ho, -, -⟩ | ⟨hfailed, hleft, -, -, -⟩
    · cases ho
    · exact h.hasWritten_of_done hfailed hleft hlen hhidden e he

end

/-- **One run** leaves everything as it is and fails, or goes on from where the record stands. -/
theorem run_advances {k : Collection} {now : Int}
    (hrun : (run payer now config options).Runs es o)
    (hworld : (World.start record).Follows options.path es w) (hsaves : ∀ e ∈ es, e.saves)
    (hseen : k.SeenIn options.directory es) (hhidden : config.hiddenSettings = none)
    (hcount : ∀ assets, Assets.ofEntries options.directory k.entries = .ok assets →
      assets.manifests.length ≤ 2 ^ 32)
    (hrecord : Cache.ofContent options.path options.place.env options.place.name true record =
      .ok c) :
    (w.record = record ∧ w.accepted = [] ∧ w.sent.flatMap Transaction.lineCalls = [] ∧
        ∃ e, o = .error e) ∨
      ∃ assets manifests lines machine c₁,
        k.HasLines config options.directory assets manifests lines ∧
        Advances c lines w machine c₁ ∧
        ∀ m, o = .ok m → ∀ e ∈ LineCall.entriesFrom 0 lines, c₁.HasWritten e := by
  rcases run_cases rfl hworld hrun with ⟨e, sent, accepted, rfl, -, hstop⟩ |
    ⟨s, machine, c₁, fault, assets, manifests, lines, hready, -, rfl⟩ |
    ⟨p, v, v₁, c₁, t, assets, manifests, lines, h⟩
  · have hlines : ∀ u ∈ sent, u.lineCalls = [] := fun u hu => by
      obtain ⟨m, hm⟩ := hstop.creates_of_sent u hu
      exact hm.lineCalls
    obtain rfl := hstop.world
    obtain rfl := hstop.saves hsaves
    exact .inl ⟨rfl, rfl, lineCalls_of_forall_nil hlines, e, rfl⟩
  · have hcache : s.cache = c := by
      have h := hready.surveyed.cache.symm.trans hrecord
      cases h
      rfl
    obtain ⟨assets', hlines, -⟩ := Collection.hasLines_of_found hready.surveyed.found hseen
    exact .inr ⟨assets', manifests, lines, machine, c₁, hlines, hcache ▸ hready.advances, nofun⟩
  · have hcache : p.survey.cache = c := by
      have h := h.ready.surveyed.cache.symm.trans hrecord
      cases h
      rfl
    obtain ⟨assets', hlines, hsame⟩ :=
      Collection.hasLines_of_found h.ready.surveyed.found hseen
    have hlen : lines.length ≤ 2 ^ 32 := by
      rw [h.ready.surveyed.found.length_eq.2, ← hsame]
      exact hcount assets' hlines.ofEntries
    obtain ⟨c₂, hadvances, hdone⟩ := h.advances hsaves hhidden hlen
    exact .inr ⟨assets', manifests, lines, p.machine, c₂, hlines, hcache ▸ hadvances, hdone⟩

/-! ## Many runs -/

/-- An upload that is run again and again until it succeeds, each time from the record that the
run before it left; `ws` are the worlds that the runs leave behind. -/
inductive Resumed (payer : Address) (config : Config) (options : Options) (k : Collection) :
    (record : Content) → (ws : List World) → Prop
  | last {record : Content} {now : Int} {es : List Event} {w : World} {machine : Address}
      (hrun : (run payer now config options).Runs es (.ok machine))
      (hworld : (World.start record).Follows options.path es w) (hsaves : ∀ e ∈ es, e.saves)
      (hseen : k.SeenIn options.directory es) : Resumed payer config options k record [w]
  | again {record : Content} {now : Int} {es : List Event} {w : World} {e : Failure}
      {ws : List World} (hrun : (run payer now config options).Runs es (.error e))
      (hworld : (World.start record).Follows options.path es w) (hsaves : ∀ e ∈ es, e.saves)
      (hseen : k.SeenIn options.directory es)
      (hrest : Resumed payer config options k w.record ws) :
      Resumed payer config options k record (w :: ws)

/-- What runs did together from a record on: they used one machine, created it if there was none,
and wrote every missing entry to it. -/
structure Completes (c : Cache) (lines : List (String × String)) (ws : List World)
    (machine : Address) : Prop where
  machine_old : c.machine = .ok none ∨ c.machine = .ok (some machine)
  created : ws.flatMap (fun w => w.accepted.flatMap Transaction.createdMachines) =
    if c.program.candyMachine = "" then [machine] else []
  calls : ∀ w ∈ ws, ∀ call ∈ (w.sent ++ w.accepted).flatMap Transaction.lineCalls,
    call.machine = machine ∧
      ∀ e ∈ call.entries, e ∈ LineCall.entriesFrom 0 lines ∧ ¬Kept c e
  accepted : (ws.flatMap fun w => written w.accepted).Perm
    ((LineCall.entriesFrom 0 lines).filter fun e => ¬Kept c e)

theorem Advances.completes {machine : Address} (h : Advances c lines w machine c₁)
    (hdone : ∀ e ∈ LineCall.entriesFrom 0 lines, c₁.HasWritten e) :
    Completes c lines [w] machine where
  machine_old := h.machine_old
  created := by simpa using h.created
  calls := by simpa using h.calls
  accepted := by
    have hnone : (LineCall.entriesFrom 0 lines).filter (fun e => ¬c₁.HasWritten e) = [] :=
      List.filter_eq_nil_iff.2 fun e he => by simpa using hdone e he
    have haccepted := h.accepted
    rw [hnone, List.append_nil] at haccepted
    simpa using haccepted

/-- A record that names a machine keeps what it has written. -/
theorem kept_iff_hasWritten {machine : Address} (h : c.machine = .ok (some machine)) :
    Kept c e ↔ c.HasWritten e := by
  rw [kept_iff (.inr h), and_iff_right h]

/-- What runs do from the record of a run completes what that run did. -/
theorem Advances.completes_cons {machine machine' : Address} {ws : List World}
    (h : Advances c lines w machine c₁) (hrest : Completes c₁ lines ws machine') :
    Completes c lines (w :: ws) machine := by
  have hmachine : machine' = machine := by
    have hold := hrest.machine_old
    rw [h.machine_eq] at hold
    rcases hold with hold | hold <;> cases hold
    rfl
  subst hmachine
  have hnamed : c₁.program.candyMachine ≠ "" := fun hempty => by
    have hmachine := h.machine_eq
    rw [machine_eq_none_iff.2 hempty] at hmachine
    cases hmachine
  have hpending : ∀ e ∈ LineCall.entriesFrom 0 lines, ¬Kept c₁ e → ¬Kept c e := by
    intro e he hkept
    rw [kept_iff_hasWritten h.machine_eq] at hkept
    have hmem : e ∈ (LineCall.entriesFrom 0 lines).filter fun e => ¬c₁.HasWritten e :=
      List.mem_filter.2 ⟨he, by simpa using hkept⟩
    have hmem := h.accepted.mem_iff.1 (List.mem_append_right _ hmem)
    simpa using (List.mem_filter.1 hmem).2
  exact
    { machine_old := h.machine_old
      created := by rw [List.flatMap_cons, h.created, hrest.created, if_neg hnamed, List.append_nil]
      calls := by
        intro v hv call hcall
        rcases List.mem_cons.1 hv with rfl | hv
        · exact h.calls call hcall
        · obtain ⟨hm, hentries⟩ := hrest.calls v hv call hcall
          refine ⟨hm, fun e he => ?_⟩
          obtain ⟨hmem, hkept⟩ := hentries e he
          exact ⟨hmem, hpending e hmem hkept⟩
      accepted := by
        have hsame : (LineCall.entriesFrom 0 lines).filter (fun e => ¬Kept c₁ e) =
            (LineCall.entriesFrom 0 lines).filter fun e => ¬c₁.HasWritten e :=
          List.filter_congr fun e _ => by simp [kept_iff_hasWritten h.machine_eq]
        have hrestAccepted := hrest.accepted
        rw [hsame] at hrestAccepted
        rw [List.flatMap_cons]
        exact (hrestAccepted.append_left _).trans h.accepted }

/-- **All runs together** complete what is missing. -/
theorem Resumed.completes {k : Collection} {ws : List World}
    (h : Resumed payer config options k record ws) (hhidden : config.hiddenSettings = none)
    (hcount : ∀ assets, Assets.ofEntries options.directory k.entries = .ok assets →
      assets.manifests.length ≤ 2 ^ 32)
    (hrecord : Cache.ofContent options.path options.place.env options.place.name true record =
      .ok c) :
    ∃ assets manifests lines machine,
      k.HasLines config options.directory assets manifests lines ∧
        Completes c lines ws machine := by
  induction h generalizing c with
  | last hrun hworld hsaves hseen =>
    rcases run_advances hrun hworld hsaves hseen hhidden hcount hrecord with
      ⟨-, -, -, _, ho⟩ | ⟨assets, manifests, lines, machine, c₁, hlines, hadvances, hdone⟩
    · cases ho
    · exact ⟨assets, manifests, lines, machine, hlines, hadvances.completes (hdone _ rfl)⟩
  | again hrun hworld hsaves hseen _ ih =>
    rcases run_advances hrun hworld hsaves hseen hhidden hcount hrecord with
      ⟨hsame, haccepted, hsent, -⟩ | ⟨assets, manifests, lines, machine, c₁, hlines, hadvances, -⟩
    · obtain ⟨assets, manifests, lines, machine, hlines, hcompletes⟩ := ih (hsame ▸ hrecord)
      refine ⟨assets, manifests, lines, machine, hlines, ?_⟩
      exact
        { hcompletes with
          created := by rw [List.flatMap_cons, haccepted, hcompletes.created]; rfl
          calls := by
            intro v hv call hcall
            rcases List.mem_cons.1 hv with rfl | hv
            · rw [haccepted, List.append_nil, hsent] at hcall
              cases hcall
            · exact hcompletes.calls v hv call hcall
          accepted := by
            rw [List.flatMap_cons, haccepted]
            exact hcompletes.accepted }
    · have hnext : Cache.ofContent options.path options.place.env options.place.name true
          (.bytes (Bytes.ofText c₁.render)) = .ok { c₁ with path := options.path } := by
        rw [Cache.ofContent, Cache.ofBytes?_render]
      obtain ⟨_, _, lines', machine', hlines', hcompletes⟩ := ih (hadvances.record ▸ hnext)
      obtain ⟨-, -, rfl⟩ := hlines.unique hlines'
      have hrest : Completes c₁ lines _ machine' := ⟨hcompletes.machine_old, hcompletes.created,
        hcompletes.calls, hcompletes.accepted⟩
      exact ⟨assets, manifests, lines, machine, hlines, hadvances.completes_cons hrest⟩

/-- What is written to distinct positions is written by each run apart from the others. -/
theorem pairwise_written {ws : List World} {entries : List (Nat × String × String)}
    (h : (ws.flatMap fun w => written w.accepted).Perm entries)
    (hnodup : (entries.map (·.1)).Nodup) :
    ws.Pairwise fun v w => ∀ e ∈ written v.accepted, ∀ e' ∈ written w.accepted, e.1 ≠ e'.1 := by
  have hnodup : ((ws.flatMap fun w => written w.accepted).map (·.1)).Nodup :=
    (h.map (·.1)).nodup_iff.2 hnodup
  rw [List.Nodup, List.pairwise_map, List.pairwise_flatMap] at hnodup
  exact hnodup.2

/-- **Resuming is exactly-once.** Let an upload without hidden settings be run again and again with
the same collection, from a record `c` that can be loaded, until it succeeds; each run may fail,
stop or be stopped at any point, and its batches may end in any order. Over all runs together one
machine is created if the record named none, and none otherwise; every call names this machine;
every entry of the collection is accepted exactly once, except those that the record had written to
the machine it named, which are never sent; and what is accepted in different runs goes to different
positions.

The position of an entry is sent in 32 bits, so a collection has at most `2 ^ 32` manifests. -/
theorem resume_exactly_once {k : Collection} {ws : List World}
    (hruns : Resumed payer config options k record ws) (hhidden : config.hiddenSettings = none)
    (hrecord : Cache.ofContent options.path options.place.env options.place.name true record =
      .ok c)
    (hcount : ∀ assets, Assets.ofEntries options.directory k.entries = .ok assets →
      assets.manifests.length ≤ 2 ^ 32) :
    ∃ assets manifests lines machine,
      k.HasLines config options.directory assets manifests lines ∧
      (c.machine = .ok none ∨ c.machine = .ok (some machine)) ∧
      ws.flatMap (fun w => w.accepted.flatMap Transaction.createdMachines) =
        (if c.program.candyMachine = "" then [machine] else []) ∧
      (∀ w ∈ ws, ∀ call ∈ (w.sent ++ w.accepted).flatMap Transaction.lineCalls,
        call.machine = machine ∧
          ∀ e ∈ call.entries, e ∈ LineCall.entriesFrom 0 lines ∧ ¬Kept c e) ∧
      (ws.flatMap fun w => written w.accepted).Perm
        ((LineCall.entriesFrom 0 lines).filter fun e => ¬Kept c e) ∧
      ws.Pairwise fun v w => ∀ e ∈ written v.accepted, ∀ e' ∈ written w.accepted,
        e.1 ≠ e'.1 := by
  obtain ⟨assets, manifests, lines, machine, hlines, h⟩ :=
    hruns.completes hhidden hcount hrecord
  refine ⟨assets, manifests, lines, machine, hlines, h.machine_old, h.created, h.calls,
    h.accepted, pairwise_written h.accepted ?_⟩
  exact LineCall.nodup_map_fst_entriesFrom.sublist (List.filter_sublist.map _)

/-- The line of an item is refused and then written by a second run, to the machine that the first
run created. -/
theorem resume_exactly_once_refused :
    ∃ ws k machine, Resumed Sample.payer Sample.config Sample.options k .missing ws ∧
      ws.length = 2 ∧
      ws.flatMap (fun w => w.accepted.flatMap Transaction.createdMachines) = [machine] ∧
      (∀ w ∈ ws, ∀ call ∈ (w.sent ++ w.accepted).flatMap Transaction.lineCalls,
        call.machine = machine) ∧
      ws.map (fun w => written w.accepted) = [[], [(0, "A", "https://x/0")]] := by
  let rules : FailureRules := { FailureRules.none with sends := [2] }
  let l₁ : Ledger := { Sample.ledger "A" with rules }
  let l₂ : Ledger := { (l₁.run Sample.upload).2 with rules := FailureRules.none }
  let k : Collection := ⟨[⟨"0.png", true⟩, ⟨"0.json", true⟩], fun _ => Sample.manifest "A"⟩
  have hrun₁ := Ledger.runs_transcript Sample.upload l₁
  have hrun₂ := Ledger.runs_transcript Sample.upload l₂
  have hchecks :
      let es₁ := (Ledger.transcript Sample.upload l₁).1
      let es₂ := (Ledger.transcript Sample.upload l₂).1
      let w₁ := (World.start .missing).after Sample.options.path es₁
      let w₂ := (World.start w₁.record).after Sample.options.path es₂
      (l₁.run Sample.upload).1.isOk = false ∧ (l₂.run Sample.upload).1.isOk = true ∧
      (World.start .missing).permitsAll Sample.options.path es₁ = true ∧
      (World.start w₁.record).permitsAll Sample.options.path es₂ = true ∧
      (∀ e ∈ es₁, e.saves) ∧ (∀ e ∈ es₂, e.saves) ∧
      (∀ e ∈ es₁, k.sees "assets" e) ∧ (∀ e ∈ es₂, k.sees "assets" e) ∧
      [w₁, w₂].map (fun w => written w.accepted) = [[], [(0, "A", "https://x/0")]] := by
    decide +kernel
  obtain ⟨hfails, hok, hpermits₁, hpermits₂, hsaves₁, hsaves₂, hsees₁, hsees₂, hwritten⟩ := hchecks
  obtain ⟨e, he⟩ := exists_eq_error_of_isOk hfails
  obtain ⟨m, hm⟩ := exists_eq_ok_of_isOk hok
  rw [he] at hrun₁
  rw [hm] at hrun₂
  generalize (Ledger.transcript Sample.upload l₁).1 = es₁ at *
  generalize (Ledger.transcript Sample.upload l₂).1 = es₂ at *
  have hruns : Resumed Sample.payer Sample.config Sample.options k .missing [_, _] :=
    .again hrun₁ (World.follows_after hpermits₁) hsaves₁ (Collection.seenIn_of_sees hsees₁)
      (.last hrun₂ (World.follows_after hpermits₂) hsaves₂ (Collection.seenIn_of_sees hsees₂))
  have hcount : ∀ assets, Assets.ofEntries "assets" k.entries = .ok assets →
      assets.manifests.length ≤ 2 ^ 32 := fun assets =>
    Event.length_le_of_fits (by decide +kernel)
  obtain ⟨_, _, _, machine, -, -, hcreated, hcalls, -⟩ :=
    resume_exactly_once hruns rfl rfl hcount
  exact ⟨_, k, machine, hruns, rfl, hcreated, fun w hw call hcall => (hcalls w hw call hcall).1,
    hwritten⟩

/-- Beyond `2 ^ 32` manifests a line need not be accepted where it belongs. A machine is recorded to
have all but the last of `2 ^ 32 + 1` items, and an upload of them succeeds at once. The last line is
missing, but what is accepted is its name and link at the position 0, which the record had written. -/
theorem resume_elsewhere :
    ∃ k record w c assets manifests lines,
      Resumed Sample.payer Sample.wide Sample.options k record [w] ∧
      Sample.wide.hiddenSettings = none ∧
      Cache.ofContent Sample.options.path Sample.place.env Sample.place.name true record = .ok c ∧
      k.HasLines Sample.wide Sample.options.directory assets manifests lines ∧
      lines.length = 4294967297 ∧
      (4294967296, "A", "https://x/4294967296") ∈ LineCall.entriesFrom 0 lines ∧
      ¬Kept c (4294967296, "A", "https://x/4294967296") ∧ Kept c (0, "A", "https://x/0") ∧
      written w.accepted = [(0, "A", "https://x/4294967296")] := by
  have hlacks := Sample.lacks_record (Ledger.newKey 1) Sample.beyond
  obtain ⟨es₁, es₂, p, w, c, h⟩ := Sample.exists_overflow_record (Ledger.newKey 1)
  have hruns : Resumed Sample.payer Sample.wide Sample.options (Sample.collection _) _ [w] :=
    .last h.runs h.follows (fun e he => (h.smooth e he).saves)
      (Collection.seenIn_of_sees fun e he => (h.smooth e he).sees)
  have hlines := Sample.lines_collection (n := Sample.beyond + 1) (by decide)
  have hlength : (Sample.lines (Sample.beyond + 1)).length = 4294967297 := by
    rw [Sample.length_lines]
    rfl
  have hmissing : ¬Kept (Sample.record (Ledger.newKey 1) Sample.beyond) Sample.beyondEntry :=
    fun hkept => hlacks.not_hasWritten hkept.2
  have hkept : Kept (Sample.record (Ledger.newKey 1) Sample.beyond) (0, "A", "https://x/0") :=
    ⟨Address.text_ne_empty _, hlacks.written 0 (by decide)⟩
  have hwritten : written w.accepted = [(0, "A", "https://x/4294967296")] := by
    rw [written, h.accepted]
    rfl
  exact ⟨_, _, w, _, _, _, _, hruns, rfl, Sample.ofContent_record _ _, hlines, hlength,
    Sample.beyondEntry_mem, hmissing, hkept, hwritten⟩

end CandyDrop.Upload
