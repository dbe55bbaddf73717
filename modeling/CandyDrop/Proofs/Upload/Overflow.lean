import CandyDrop.Proofs.Upload.Performed
import CandyDrop.Proofs.Upload.Smooth

/-!
# One line more than 32 bits can number

A line is sent with its position in 32 bits. The line at the position `2 ^ 32` is sent with the
position 0, and when it is accepted the item at 0 is marked, which may have been on the chain before.
So a record that has written a collection but for this line (`Sample.Lacks`) is left as it was by
an upload that sends the line and has it accepted (`Sample.exists_overflow`).
-/

namespace CandyDrop

open Upload Schedule

/-- Batches with one line together are one batch. -/
theorem Batch.eq_singleton_of_flatten {bs : List Batch} {l : ConfigLine} (h : bs.flatten = [l])
    (hbs : ∀ b ∈ bs, b ≠ []) : bs = [[l]] := by
  cases bs with
  | nil => cases h
  | cons b bs =>
    cases b with
    | nil => exact absurd rfl (hbs [] List.mem_cons_self)
    | cons x xs =>
      rw [List.flatten_cons, List.cons_append, List.cons.injEq, List.append_eq_nil_iff] at h
      obtain ⟨rfl, rfl, hrest⟩ := h
      cases bs with
      | nil => rfl
      | cons b' bs =>
        rw [List.flatten_cons, List.append_eq_nil_iff] at hrest
        exact absurd hrest.1 (hbs b' (by simp))

namespace Sample

variable {k n : Nat} {machine : Address} {c c' : Cache} {w w' v v₁ : World} {es : List Event}
  {p : Prepared} {t : Tally} {assets : Assets} {manifests : List Manifest}

/-- The record has the collection on the chain up to a position, and not there. -/
structure Lacks (k : Nat) (machine : Address) (c : Cache) : Prop where
  machine_eq : c.machine = .ok (some machine)
  written : ∀ i < k, c.HasWritten (i, "A", link i)
  lacking : ¬c.HasWritten (k, "A", link k)

/-- The record of a machine that has the first `k` items. -/
def record (machine : Address) (k : Nat) : Cache where
  program := CacheProgram.ofMachine machine
  items :=
    { entries := (List.range k).map fun i => (i.repr, ⟨"A", link i, true⟩)
      nodup_keys := by
        rw [List.map_map]
        exact List.nodup_range.map fun i j h => Text.repr_inj.1 h }
  env := place.env
  cacheName := place.name
  path := options.path

theorem ofContent_record (machine : Address) (k : Nat) :
    Cache.ofContent options.path place.env place.name true
      (.bytes (Bytes.ofText (record machine k).render)) = .ok (record machine k) := by
  rw [Cache.ofContent, Cache.ofBytes?_render]
  rfl

theorem lacks_record (machine : Address) (k : Nat) : Lacks k machine (record machine k) where
  machine_eq := machine_of_text rfl
  written := by
    intro i hi
    exact Table.get?_eq_some_iff.2 (List.mem_map.2 ⟨i, List.mem_range.2 hi, rfl⟩)
  lacking := by
    intro h
    obtain ⟨i, hi, heq⟩ := List.mem_map.1 (Table.get?_eq_some_iff.1 h)
    obtain rfl := Text.repr_inj.1 (congrArg Prod.fst heq)
    exact Nat.lt_irrefl _ (List.mem_range.1 hi)

/-- The line at a position as it is sent. -/
def line (k : Nat) : ConfigLine := ⟨UInt32.ofNat k, "A", link k⟩

section

variable (h : Performed payer wide options es w p v v₁ w' (.ok machine) c t assets manifests
  (lines (k + 1)))
  (hlacks : Lacks k machine p.survey.cache)
include h hlacks

/-- Merging the collection into the record changes nothing about what it lacks. -/
theorem Lacks.prepared : Lacks k machine p.cache := by
  obtain ⟨rfl, -⟩ := h.of_ok rfl
  refine ⟨h.ready.opened.machine_eq, fun i hi => ?_, fun hlast => ?_⟩
  · have hmem : (i, "A", link i) ∈ LineCall.entriesFrom 0 (lines (k + 1)) :=
      mem_entries_lines (by omega)
    exact (h.ready.hasWritten_iff hmem).2 ⟨hlacks.machine_eq, hlacks.written i hi⟩
  · have hmem := mem_entries_lines (Nat.lt_succ_self k)
    exact hlacks.lacking ((h.ready.hasWritten_iff hmem).1 hlast).2

/-- What is left to write is the last line. -/
theorem Lacks.batches_eq (hk : k + 1 < 2 ^ 64) : p.batches = [[line k]] := by
  have hprepared := hlacks.prepared h
  have hlength : (lines (k + 1)).length = k + 1 := length_lines (k + 1)
  have hflatten := h.ready.flatten_eq h.batches (by omega) rfl
  refine Batch.eq_singleton_of_flatten ?_ fun b hb => (h.limits b hb).ne_nil
  rw [hflatten, hlength, Table.pendingLines, List.range_succ, List.filterMap_append,
    List.filterMap_eq_nil_iff.2, List.nil_append]
  · have hlists := h.ready.lists _ (mem_entries_lines (Nat.lt_succ_self k))
    exact List.filterMap_cons_some (pendingLine?_of_not_hasWritten hlists hprepared.lacking)
  · intro i hi
    exact pendingLine?_of_hasWritten (hprepared.written i (List.mem_range.1 hi))

variable (hk : k + 1 < 2 ^ 64) (hsmooth : ∀ e ∈ es, Smooth n e)
include hk hsmooth

theorem Lacks.tally_eq : t.started = [[line k]] ∧ t.done = [[line k]] := by
  have hleft : t.left = [] := h.written.goesOn fun e he => (hsmooth e he).letsGoOn
  have hbatches := h.written.batches_eq
  rw [hlacks.batches_eq h hk, hleft, List.append_nil] at hbatches
  have hperm := h.written.perm
  rw [(h.of_ok rfl).2.1, List.append_nil, ← hbatches, List.perm_singleton] at hperm
  exact ⟨hbatches.symm, hperm⟩

/-- If the line is sent with another position, the record lacks it afterwards as well. -/
theorem Lacks.after (hwraps : (UInt32.ofNat k).toNat ≠ k) :
    ∃ c₁ : Cache, w'.record = .bytes (Bytes.ofText c₁.render) ∧ Lacks k machine c₁ ∧
      c₁.items.get? k.repr = some ⟨"A", link k, false⟩ := by
  obtain ⟨c₁, hrecord, hmachine, hitems⟩ := h.exists_record fun e he => (hsmooth e he).saves
  have hprepared := hlacks.prepared h
  have hpositions : positions t.done = [(UInt32.ofNat k).toNat] := by
    rw [(hlacks.tally_eq h hk hsmooth).2]
    rfl
  obtain ⟨onChain, hlast⟩ := h.ready.lists _ (mem_entries_lines (Nat.lt_succ_self k))
  cases onChain with
  | true => exact absurd hlast hprepared.lacking
  | false =>
    have hpending : c₁.items.get? k.repr = some ⟨"A", link k, false⟩ := by
      have hunmarked : k ∉ positions t.done := by
        rw [hpositions, List.mem_singleton]
        exact hwraps.symm
      rw [hitems, h.written.marks.get?_repr, hlast, Option.map_some, decide_eq_false hunmarked]
      rfl
    have hsame : machine = p.machine := (h.of_ok rfl).1
    refine ⟨c₁, hrecord, ⟨?_, fun i hi => ?_, fun hwritten => ?_⟩, hpending⟩
    · rw [hmachine, h.machine_eq, hsame]
    · have hmem : (i, "A", link i) ∈ LineCall.entriesFrom 0 (lines (k + 1)) :=
        mem_entries_lines (by omega)
      have hwritten := (hasWritten_of_marks h.written.marks h.ready.lists hmem).2
        (.inl (hprepared.written i hi))
      exact (hitems _).trans hwritten
    · rw [Cache.HasWritten, hpending] at hwritten
      cases hwritten

end

/-! ## The first position beyond 32 bits -/

/-- The first position that 32 bits cannot hold. -/
def beyond : Nat := 4294967296

/-- The line at this position. -/
def beyondEntry : Nat × String × String := (4294967296, "A", "https://x/4294967296")

theorem beyondEntry_eq : (beyond, "A", link beyond) = beyondEntry := by rfl

theorem beyondEntry_mem : beyondEntry ∈ LineCall.entriesFrom 0 (lines (beyond + 1)) := by
  rw [← beyondEntry_eq]
  exact mem_entries_lines (Nat.lt_succ_self beyond)

theorem Lacks.not_hasWritten (h : Lacks beyond machine c) : ¬c.HasWritten beyondEntry := by
  rw [← beyondEntry_eq]
  exact h.lacking

/-- An upload of one line more than 32 bits can number: it sends the last line with the position 0,
and the record that it leaves lacks this line. -/
structure Overflow (machine : Address) (w : World) (es₁ es₂ : List Event) (p : Prepared)
    (w' : World) (c' : Cache) : Prop where
  runs : (Upload.run payer 0 wide options).Runs (es₁ ++ es₂) (.ok machine)
  prepares : (prepare payer 0 wide options).Runs es₁ (.ok p)
  follows : w.Follows options.path (es₁ ++ es₂) w'
  smooth : ∀ e ∈ es₁ ++ es₂, Smooth (beyond + 1) e
  found : ∃ assets manifests, Found wide options (es₁ ++ es₂) assets manifests (lines (beyond + 1))
  sent : w'.sent.flatMap Transaction.lineCalls =
    w.sent.flatMap Transaction.lineCalls ++ [⟨machine, 0, [beyondEntry.2]⟩]
  accepted : w'.accepted.flatMap Transaction.lineCalls =
    w.accepted.flatMap Transaction.lineCalls ++ [⟨machine, 0, [beyondEntry.2]⟩]
  record : w'.record = .bytes (Bytes.ofText c'.render)
  lacks : Lacks beyond machine c'
  pending : c'.items.get? "4294967296" = some ⟨"A", "https://x/4294967296", false⟩

/-- **One line too many.** To a machine that has all but the last of `2 ^ 32 + 1` items, an upload
of them succeeds like this. -/
theorem exists_overflow (hlacks : Lacks beyond machine c) (hout : w.out = [])
    (hrecord : w.record = .bytes (Bytes.ofText c.render)) :
    ∃ es₁ es₂ p w' c', Overflow machine w es₁ es₂ p w' c' := by
  have hsize : beyond = 2 ^ 32 := rfl
  have hindex : (UInt32.ofNat beyond).toNat = 0 := rfl
  obtain ⟨es₁, es₂, p, w', v, v₁, c', t, assets, manifests, hrun, hprepare, hw, hsmooth, h, hcache⟩ :=
    exists_upload (n := beyond + 1) (by omega) (by omega) hlacks.machine_eq hout hrecord
  obtain ⟨rfl, -⟩ := h.of_ok rfl
  have hsurvey : Lacks beyond p.machine p.survey.cache := by
    rw [hcache]
    exact ⟨hlacks.machine_eq, hlacks.written, hlacks.lacking⟩
  obtain ⟨hstarted, hdone⟩ := hsurvey.tally_eq h (by omega) hsmooth
  obtain ⟨c₁, hfile, hafter, hpending⟩ := hsurvey.after h (by omega) hsmooth (by omega)
  have hcall : Batch.call p.machine [line beyond] = ⟨p.machine, 0, [beyondEntry.2]⟩ := by
    rw [← beyondEntry_eq]
    rfl
  exact ⟨es₁, es₂, p, w', c₁,
    { runs := hrun
      prepares := hprepare
      follows := hw
      smooth := hsmooth
      found := ⟨assets, manifests, h.ready.surveyed.found⟩
      sent := by rw [h.lineCalls_sent, hstarted, List.map_singleton, hcall]
      accepted := by rw [h.lineCalls_accepted, hdone, List.map_singleton, hcall]
      record := hfile
      lacks := hafter
      pending := hpending }⟩

/-- So it goes with a record that was made up for it. -/
theorem exists_overflow_record (machine : Address) :
    ∃ es₁ es₂ p w c, Overflow machine
      (World.start (.bytes (Bytes.ofText (record machine beyond).render))) es₁ es₂ p w c :=
  exists_overflow (lacks_record machine beyond) rfl rfl

/-- The line that is sent with the position 0 is what is stored there. -/
theorem Overflow.stored {es₁ es₂ : List Event} (h : Overflow machine w es₁ es₂ p w' c') :
    Accepted.stored? w'.accepted machine 0 = some beyondEntry.2 := by
  have hentries : Accepted.entries machine w'.accepted =
      Accepted.entries machine w.accepted ++ [(0, beyondEntry.2)] := by
    rw [Accepted.entries, h.accepted, List.filter_append, List.flatMap_append]
    simp [LineCall.entries, LineCall.entriesFrom, Accepted.entries]
  rw [Accepted.stored?, hentries, List.filter_append]
  simp

/-- An upload of as many items as 32 bits can number makes such a record of one that says nothing of
the next position. -/
theorem exists_lacks (hmachine : c.machine = .ok (some machine))
    (hfresh : c.items.get? beyond.repr = none) (hout : w.out = [])
    (hrecord : w.record = .bytes (Bytes.ofText c.render)) :
    ∃ es w' c', (Upload.run payer 0 wide options).Runs es (.ok machine) ∧
      w.Follows options.path es w' ∧ (∀ e ∈ es, Smooth beyond e) ∧ w'.out = [] ∧
      w'.record = .bytes (Bytes.ofText c'.render) ∧ Lacks beyond machine c' := by
  have hsize : beyond = 2 ^ 32 := rfl
  obtain ⟨es₁, es₂, p, w', v, v₁, c', t, assets, manifests, hrun, -, hw, hsmooth, h, hcache⟩ :=
    exists_upload (n := beyond) (by omega) (by omega) hmachine hout hrecord
  obtain ⟨rfl, hfailed, -⟩ := h.of_ok rfl
  obtain ⟨c₁, hfile, hsame, hitems⟩ := h.exists_record fun e he => (hsmooth e he).saves
  have hleft : t.left = [] := h.written.goesOn fun e he => (hsmooth e he).letsGoOn
  have hlength : (lines beyond).length = beyond := length_lines beyond
  have hwritten := h.hasWritten_of_done hfailed hleft (by omega) rfl
  have hnone : c₁.items.get? beyond.repr = none := by
    have hkey : beyond.repr ∉ p.survey.plan.items.map Prod.fst := by
      rw [h.ready.surveyed.items, map_fst_numbered, hlength]
      intro hmem
      obtain ⟨i, hi, heq⟩ := List.mem_map.1 hmem
      exact Nat.lt_irrefl _ (Text.repr_inj.1 heq ▸ List.mem_range.1 hi)
    have hmerged : (merge p.survey.plan.items p.survey.cache).items.get? beyond.repr = none := by
      rw [get?_merge_of_not_mem hkey, hcache]
      exact hfresh
    rw [hitems, h.written.marks.get?, h.ready.opened.get?_eq_none hmerged, Option.map_none]
  refine ⟨_, w', c₁, hrun, hw, hsmooth, h.nothingOut, hfile, hsame.trans h.machine_eq,
    fun i hi => ?_, fun hlast => ?_⟩
  · exact (hitems _).trans (hwritten _ (mem_entries_lines hi))
  · rw [Cache.HasWritten, hnone] at hlast
    cases hlast

end Sample

end CandyDrop
