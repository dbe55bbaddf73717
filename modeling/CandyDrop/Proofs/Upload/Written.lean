import CandyDrop.Proofs.Upload.Overflow

/-!
# What one upload writes

An upload that gets as far as its batches writes the entries of its collection that are missing:
all of them to a machine that it created, and to a recorded machine those that the record has not
written. Each of them is sent once, at its own position, to the one machine of the upload
(`run_writes`).
-/

namespace CandyDrop.Upload

open Schedule

variable {w' : World} {payer : Address} {now : Int} {config : Config} {options : Options}
  {o : Except Failure Address} {p : Prepared}

/-- **What one upload writes.** Let an upload without hidden settings get as far as its batches, and
let nobody stop it. With `n` manifests and the machine `p.machine`, the entries to write are those
of all positions below `n` if the machine was created in this run, and otherwise those that the
record did not say were on the chain with the same name and link. Whatever becomes of the batches
and in whichever order, every call names the machine and is within the limits of a transaction, and
the calls write exactly these entries, each once. The upload succeeds only if every call was
accepted, and then the record that is saved says of every position below `n` that it is on the
chain.

A call carries the position of its first line in 32 bits, which is why the entries are known only up
to `2 ^ 32` manifests. -/
theorem run_writes {record : Content} {es₁ es₂ : List Event}
    (hrun : (run payer now config options).Runs (es₁ ++ es₂) o)
    (hprepared : (prepare payer now config options).Runs es₁ (.ok p))
    (hworld : (World.start record).Follows options.path (es₁ ++ es₂) w')
    (hhidden : config.hiddenSettings = none) (hgoesOn : ∀ e ∈ es₁ ++ es₂, e.letsGoOn) :
    ∃ assets manifests lines recorded,
      Found config options (es₁ ++ es₂) assets manifests lines ∧
      lines.length = manifests.length ∧
      Cache.ofContent options.path options.place.env options.place.name true record =
        .ok recorded ∧
      (∀ call ∈ w'.sent.flatMap Transaction.lineCalls, call.machine = p.machine ∧
        1 ≤ call.lines.length ∧ call.lines.length ≤ 17 ∧ call.size ≤ 1000) ∧
      (manifests.length ≤ 2 ^ 32 →
        (w'.sent.flatMap Transaction.lineCalls).flatMap LineCall.entries =
          (LineCall.entriesFrom 0 lines).filter fun e =>
            Accepted.Created w'.accepted p.machine ∨ ¬recorded.HasWritten e) ∧
      (∀ machine, o = .ok machine → machine = p.machine ∧
        (w'.accepted.flatMap Transaction.lineCalls).Perm
          (w'.sent.flatMap Transaction.lineCalls) ∧
        (manifests.length ≤ 2 ^ 32 → ∃ bs saved, w'.record = .bytes bs ∧
          Cache.ofBytes? options.path bs = some saved ∧
          ∀ i < manifests.length, ∃ item, saved.items.get? i.repr = some item ∧
            item.onChain = true)) := by
  rw [run_eq_prepare_bind_finish] at hrun
  obtain ⟨v, v₁, c, t, assets, manifests, lines, h⟩ :=
    performed_of_prepared rfl hworld hprepared (hrun.of_bind hprepared)
  have hlength := h.ready.surveyed.found.length_eq.1
  -- Nobody stops the upload, so every batch is started.
  have hleft : t.left = [] := h.written.goesOn hgoesOn
  have hstarted : t.started = p.batches := by
    rw [h.written.batches_eq, hleft, List.append_nil]
  have hsent : w'.sent.flatMap Transaction.lineCalls = p.batches.map (Batch.call p.machine) := by
    rw [h.lineCalls_sent, hstarted]
    rfl
  refine ⟨assets, manifests, lines, p.survey.cache, h.ready.surveyed.found, hlength,
    h.ready.surveyed.cache, ?_, ?_, ?_⟩
  · intro call hcall
    rw [hsent] at hcall
    obtain ⟨b, hb, rfl⟩ := List.mem_map.1 hcall
    exact ⟨rfl, h.limits_call hb⟩
  · intro hcount
    have hlen : lines.length ≤ 2 ^ 32 := hlength ▸ hcount
    rw [hsent, Batch.flatMap_entries_call (h.ready.sendable h.batches hlen),
      h.entries_batches hlen hhidden]
    refine List.filter_congr fun e he => ?_
    rw [decide_eq_decide, h.created_iff rfl]
    exact Classical.not_and_iff_not_or_not
  · rintro machine rfl
    obtain ⟨rfl, hfailed, hsaved⟩ := h.of_ok hhidden
    refine ⟨rfl, ?_, fun hcount => ?_⟩
    · have hperm := h.written.perm
      rw [hfailed, List.append_nil, hstarted] at hperm
      rw [hsent, h.lineCalls_accepted]
      exact hperm.map _
    · rw [← hlength] at hcount ⊢
      exact hsaved hcount

/-- An upload of one item writes its line to a new machine. -/
theorem run_writes_one :
    ∃ es₁ es₂ p w m, Sample.upload.Runs (es₁ ++ es₂) (.ok m) ∧
      (prepare Sample.payer 0 Sample.config Sample.options).Runs es₁ (.ok p) ∧
      (World.start .missing).Follows Sample.options.path (es₁ ++ es₂) w ∧
      Sample.config.hiddenSettings = none ∧ (∀ e ∈ es₁ ++ es₂, e.letsGoOn) ∧
      (w.sent.flatMap Transaction.lineCalls).flatMap LineCall.entries =
        [(0, "A", "https://x/0")] ∧
      m = p.machine ∧
      (w.accepted.flatMap Transaction.lineCalls).Perm (w.sent.flatMap Transaction.lineCalls) := by
  have hrun := Ledger.runs_transcript Sample.upload (Sample.ledger "A")
  have hchecks : ((Sample.ledger "A").run Sample.upload).1.isOk = true ∧
      let es := (Ledger.transcript Sample.upload (Sample.ledger "A")).1
      let w := (World.start .missing).after Sample.options.path es
      (World.start .missing).permitsAll Sample.options.path es = true ∧
      (∀ e ∈ es, e.letsGoOn) ∧
      (w.sent.flatMap Transaction.lineCalls).flatMap LineCall.entries =
        [(0, "A", "https://x/0")] := by decide +kernel
  obtain ⟨hok, hpermits, hgoesOn, hentries⟩ := hchecks
  obtain ⟨m, hm⟩ := exists_eq_ok_of_isOk hok
  rw [hm] at hrun
  have hworld := World.follows_after hpermits
  generalize (Ledger.transcript Sample.upload (Sample.ledger "A")).1 = es at *
  have hstages := hrun
  rw [Sample.upload, run_eq_prepare_bind_finish] at hstages
  rcases Script.runs_bind_iff.1 hstages with ⟨_, ho, -⟩ | ⟨p, es₁, es₂, rfl, hprepared, -⟩
  · cases ho
  · obtain ⟨_, _, _, _, -, -, -, -, -, hdone⟩ :=
      run_writes hrun hprepared hworld rfl hgoesOn
    obtain ⟨hmachine, hperm, -⟩ := hdone m rfl
    exact ⟨es₁, es₂, p, _, m, hrun, hprepared, hworld, rfl, hgoesOn, hentries, hmachine, hperm⟩

/-- Beyond `2 ^ 32` manifests the lines that are sent are not those to write. An upload of one more to
a machine that is recorded to have all but the last line succeeds. The last line is missing and is
sent with the position 0, where another one belongs, and the record that is saved does not say that
it is on the chain. -/
theorem run_writes_elsewhere :
    ∃ record es₁ es₂ p w m assets manifests lines recorded bs saved,
      (run Sample.payer 0 Sample.wide Sample.options).Runs (es₁ ++ es₂) (.ok m) ∧
      (prepare Sample.payer 0 Sample.wide Sample.options).Runs es₁ (.ok p) ∧
      (World.start record).Follows Sample.options.path (es₁ ++ es₂) w ∧
      Sample.wide.hiddenSettings = none ∧ (∀ e ∈ es₁ ++ es₂, e.letsGoOn) ∧
      Found Sample.wide Sample.options (es₁ ++ es₂) assets manifests lines ∧
      manifests.length = 4294967297 ∧
      Cache.ofContent Sample.options.path Sample.place.env Sample.place.name true record =
        .ok recorded ∧
      (4294967296, "A", "https://x/4294967296") ∈ LineCall.entriesFrom 0 lines ∧
      ¬recorded.HasWritten (4294967296, "A", "https://x/4294967296") ∧
      (w.sent.flatMap Transaction.lineCalls).flatMap LineCall.entries =
        [(0, "A", "https://x/4294967296")] ∧
      w.record = .bytes bs ∧ Cache.ofBytes? Sample.options.path bs = some saved ∧
      saved.items.get? "4294967296" = some ⟨"A", "https://x/4294967296", false⟩ := by
  have hlacks := Sample.lacks_record (Ledger.newKey 1) Sample.beyond
  obtain ⟨es₁, es₂, p, w, c, h⟩ := Sample.exists_overflow_record (Ledger.newKey 1)
  obtain ⟨assets, manifests, hfound⟩ := h.found
  have hlength : manifests.length = 4294967297 := by
    rw [← hfound.length_eq.1, Sample.length_lines]
    rfl
  have hrecorded := Sample.ofContent_record (Ledger.newKey 1) Sample.beyond
  have hsent : (w.sent.flatMap Transaction.lineCalls).flatMap LineCall.entries =
      [(0, "A", "https://x/4294967296")] := by
    rw [h.sent]
    rfl
  exact ⟨_, es₁, es₂, p, w, _, assets, manifests, _, _, _, _, h.runs, h.prepares, h.follows, rfl,
    fun e he => (h.smooth e he).letsGoOn, hfound, hlength, hrecorded, Sample.beyondEntry_mem,
    hlacks.not_hasWritten, hsent, h.record, Cache.ofBytes?_render c _, h.pending⟩

end CandyDrop.Upload
