import CandyDrop.Proofs.Cache.RoundTrip
import CandyDrop.Proofs.Upload.Stages

/-!
# What a performed upload did

An upload that got as far as its batches (`Performed`) sent the batches that it started and had those
accepted that are done, next to transactions without lines (`Performed.lineCalls_sent`,
`Performed.lineCalls_accepted`). The batches hold the entries of the collection that the record had
not written (`Performed.entries_batches`), and the record that is left has written those and the ones
that were done (`Performed.hasWritten_of_done`).
-/

namespace CandyDrop.Upload

open Schedule

variable {w w' v v₁ : World} {es : List Event} {payer machine : Address} {c c' : Cache}
  {bs : List Batch} {t : Tally} {entries : List (Nat × String × String)}
  {e : Nat × String × String}

/-! ## The record afterwards -/

theorem mem_positions_iff {batches : List Batch} {i : Nat} : i ∈ positions batches ↔
    ∃ e ∈ batches.flatten.map ConfigLine.entry, e.1 = i := by
  simp [positions, ConfigLine.entry]

/-- The entries that a record has written after batches were done. -/
theorem hasWritten_of_marks {ps : List Nat} (h : c.Marks c' ps) (hlists : c.Lists entries)
    (he : e ∈ entries) : c'.HasWritten e ↔ c.HasWritten e ∨ e.1 ∈ ps := by
  obtain ⟨onChain, hitem⟩ := hlists e he
  unfold Cache.HasWritten
  rw [h.get?_repr, hitem]
  simp

/-! ## What is sent and accepted -/

section

variable {config : Config} {options : Options} {o : Except Failure Address}
  {p : Prepared} {assets : Assets} {manifests : List Manifest} {lines : List (String × String)}

theorem lineCalls_of_forall_nil {ts : List Transaction} (h : ∀ u ∈ ts, u.lineCalls = []) :
    ts.flatMap Transaction.lineCalls = [] := by
  simpa using h

theorem Performed.limits
    (h : Performed payer config options es w p v v₁ w' o c t assets manifests lines) :
    ∀ b ∈ p.batches, b.WithinLimits := h.ready.limits h.batches

/-- The call of a batch is within the limits of a transaction. -/
theorem Performed.limits_call
    (h : Performed payer config options es w p v v₁ w' o c t assets manifests lines)
    {b : Batch} (hb : b ∈ p.batches) :
    1 ≤ (Batch.call machine b).lines.length ∧ (Batch.call machine b).lines.length ≤ 17 ∧
      (Batch.call machine b).size ≤ 1000 := by
  have hlimits := h.limits b hb
  refine ⟨?_, ?_, ?_⟩
  · simpa [Batch.call, Nat.one_le_iff_ne_zero] using hlimits.ne_nil
  · rw [Batch.call, List.length_map]
    exact hlimits.length_le
  · rw [Batch.size_call]
    exact hlimits.size_le

theorem Performed.lineCalls_sent
    (h : Performed payer config options es w p v v₁ w' o c t assets manifests lines) :
    w'.sent.flatMap Transaction.lineCalls =
      w.sent.flatMap Transaction.lineCalls ++ t.started.map (Batch.call p.machine) := by
  obtain ⟨s₀, s₁, hsent, hnone⟩ := h.sent_eq
  have hstarted : ∀ b ∈ t.started, b.WithinLimits := fun b hb =>
    h.limits b (h.written.batches_eq ▸ List.mem_append_left _ hb)
  have hs₀ := lineCalls_of_forall_nil fun u hu => hnone u (List.mem_append_left _ hu)
  have hs₁ := lineCalls_of_forall_nil fun u hu => hnone u (List.mem_append_right _ hu)
  simp only [hsent, List.flatMap_append, hs₀, hs₁, Batch.lineCalls_transactions hstarted,
    List.nil_append, List.append_nil]

theorem Performed.mem_batches_of_mem_done
    (h : Performed payer config options es w p v v₁ w' o c t assets manifests lines) :
    ∀ b ∈ t.done, b ∈ p.batches := by
  intro b hb
  have hstarted : b ∈ t.started := h.written.perm.mem_iff.1 (List.mem_append_left _ hb)
  rw [h.written.batches_eq]
  exact List.mem_append_left _ hstarted

theorem Performed.lineCalls_accepted
    (h : Performed payer config options es w p v v₁ w' o c t assets manifests lines) :
    w'.accepted.flatMap Transaction.lineCalls =
      w.accepted.flatMap Transaction.lineCalls ++ t.done.map (Batch.call p.machine) := by
  obtain ⟨a₀, a₁, haccepted, hnone, -⟩ := h.accepted_eq
  have hdone : ∀ b ∈ t.done, b.WithinLimits := fun b hb =>
    h.limits b (h.mem_batches_of_mem_done b hb)
  have ha₀ := lineCalls_of_forall_nil fun u hu => hnone u (List.mem_append_left _ hu)
  have ha₁ := lineCalls_of_forall_nil fun u hu => hnone u (List.mem_append_right _ hu)
  simp only [haccepted, List.flatMap_append, ha₀, ha₁, Batch.lineCalls_transactions hdone,
    List.nil_append, List.append_nil]

/-- In a world where nothing was accepted before, a performed upload created its machine unless that
was recorded. -/
theorem Performed.created_iff
    (h : Performed payer config options es w p v v₁ w' o c t assets manifests lines)
    (hw : w.accepted = []) :
    Accepted.Created w'.accepted p.machine ↔
      p.survey.cache.machine ≠ .ok (some p.machine) := by
  obtain ⟨a₀, a₁, haccepted, -, ha₁, hopens⟩ := h.accepted_eq
  have hbatches := Batch.createdMachines_transactions payer p.machine t.done
  unfold Accepted.Created
  rw [haccepted, hw, List.nil_append]
  cases hopens with
  | recorded hm =>
    refine iff_of_false ?_ (fun hne => hne hm)
    rintro ⟨u, hu, hmem⟩
    rcases List.mem_append.1 (by simpa using hu) with hu | hu
    · simp [hbatches u hu] at hmem
    · simp [ha₁ u hu] at hmem
  | @created u hm hu =>
    refine iff_of_true ⟨u, by simp, by simp [hu.createdMachines]⟩ ?_
    rw [hm]
    simp

/-- The entries that a performed upload is to write. -/
theorem Performed.entries_batches
    (h : Performed payer config options es w p v v₁ w' o c t assets manifests lines)
    (hlen : lines.length ≤ 2 ^ 32) (hhidden : config.hiddenSettings = none) :
    p.batches.flatten.map ConfigLine.entry =
      (LineCall.entriesFrom 0 lines).filter fun e =>
        ¬(p.survey.cache.machine = .ok (some p.machine) ∧ p.survey.cache.HasWritten e) := by
  rw [h.ready.entries_flatten h.batches hlen hhidden]
  refine List.filter_congr fun e he => ?_
  simp [h.ready.hasWritten_iff he]

/-- Every line of a batch was pending, and no two stand at the same position. -/
theorem Performed.pending
    (h : Performed payer config options es w p v v₁ w' o c t assets manifests lines)
    (hlen : lines.length ≤ 2 ^ 32) :
    (∀ e ∈ p.batches.flatten.map ConfigLine.entry,
        e ∈ LineCall.entriesFrom 0 lines ∧ ¬p.cache.HasWritten e) ∧
      ((p.batches.flatten.map ConfigLine.entry).map (·.1)).Nodup := by
  by_cases hhidden : config.hiddenSettings = none
  · rw [h.ready.entries_flatten h.batches hlen hhidden]
    refine ⟨fun e he => ?_, ?_⟩
    · obtain ⟨hmem, hpending⟩ := List.mem_filter.1 he
      exact ⟨hmem, by simpa using hpending⟩
    · exact LineCall.nodup_map_fst_entriesFrom.sublist (List.filter_sublist.map _)
  · rw [h.ready.batches_of_hidden hhidden h.batches]
    simp

/-- The lines that are done are among those of the batches, none twice. -/
theorem Performed.subperm
    (h : Performed payer config options es w p v v₁ w' o c t assets manifests lines) :
    ∃ rest, (t.done.flatten.map ConfigLine.entry ++ rest).Perm
      (p.batches.flatten.map ConfigLine.entry) := by
  refine ⟨(t.failed ++ t.left).flatten.map ConfigLine.entry, ?_⟩
  rw [← List.map_append, ← List.flatten_append, ← List.append_assoc, h.written.batches_eq]
  exact ((h.written.perm.append_right t.left).flatten).map _

/-- If no batch failed and none was left, the record has written the whole collection. -/
theorem Performed.hasWritten_of_done
    (h : Performed payer config options es w p v v₁ w' o c t assets manifests lines)
    (hfailed : t.failed = []) (hleft : t.left = []) (hlen : lines.length ≤ 2 ^ 32)
    (hhidden : config.hiddenSettings = none) :
    ∀ e ∈ LineCall.entriesFrom 0 lines, c.HasWritten e := by
  intro e he
  have hperm : t.done.Perm p.batches := by
    have := h.written.perm
    rw [h.written.batches_eq, hleft, List.append_nil]
    rwa [hfailed, List.append_nil] at this
  rw [hasWritten_of_marks h.written.marks h.ready.lists he]
  by_cases hold : p.cache.HasWritten e
  · exact .inl hold
  · refine .inr (mem_positions_iff.2 ⟨e, ?_, rfl⟩)
    rw [(hperm.flatten.map ConfigLine.entry).mem_iff,
      h.ready.entries_flatten h.batches hlen hhidden, List.mem_filter]
    exact ⟨he, by simpa using hold⟩

/-- An upload that succeeds has done all of its batches, and its record says so. -/
theorem Performed.of_ok
    (h : Performed payer config options es w p v v₁ w' (.ok machine) c t assets manifests lines)
    (hhidden : config.hiddenSettings = none) :
    machine = p.machine ∧ t.failed = [] ∧
      (lines.length ≤ 2 ^ 32 → ∃ bs saved, w'.record = .bytes bs ∧
        Cache.ofBytes? options.path bs = some saved ∧
        ∀ i < lines.length, ∃ item, saved.items.get? i.repr = some item ∧
          item.onChain = true) := by
  rcases h.ending with ⟨e, ho, -, -⟩ | ⟨hfailed, hleft, hfile, hsettled, ho | ⟨e, ho, -⟩⟩
  · cases ho
  · cases ho
    refine ⟨rfl, hfailed, fun hlen => ?_⟩
    obtain ⟨saved, hsaved, -, hitems⟩ := hsettled.items hfile
    refine ⟨_, _, hsaved, Cache.ofBytes?_render saved options.path, fun i hi => ?_⟩
    obtain ⟨l, hl⟩ := LineCall.exists_mem_entriesFrom hi
    have hwritten := h.hasWritten_of_done hfailed hleft hlen hhidden _ hl
    exact ⟨_, (hitems _).trans hwritten, rfl⟩
  · cases ho

/-- When an upload ends, nothing is out. -/
theorem Performed.nothingOut
    (h : Performed payer config options es w p v v₁ w' o c t assets manifests lines) :
    w'.out = [] := by
  rcases h.ending with ⟨_, -, -, rfl⟩ | ⟨-, -, -, hsettled, -⟩
  · exact h.written.nothingOut
  · exact hsettled.out_eq.trans h.written.nothingOut

/-- The record of a performed upload names its machine. -/
theorem Performed.machine_eq
    (h : Performed payer config options es w p v v₁ w' o c t assets manifests lines) :
    c.machine = .ok (some p.machine) := by
  have hmarked : c.machine = p.cache.machine := by
    unfold Cache.machine
    rw [h.written.marks.program]
  rw [hmarked]
  exact h.ready.opened.machine_eq

/-- The record that is left has the items of what was done. -/
theorem Performed.exists_record
    (h : Performed payer config options es w p v v₁ w' o c t assets manifests lines)
    (hsaves : ∀ e ∈ es, e.saves) :
    ∃ c₁ : Cache, w'.record = .bytes (Bytes.ofText c₁.render) ∧ c₁.machine = c.machine ∧
      ∀ k, c₁.items.get? k = c.items.get? k := by
  have hfile := h.written.saved hsaves
  rcases h.ending with ⟨_, -, -, rfl⟩ | ⟨-, -, -, hsettled, -⟩
  · exact ⟨c, hfile, rfl, fun _ => rfl⟩
  · exact hsettled.items hfile

end

end CandyDrop.Upload
