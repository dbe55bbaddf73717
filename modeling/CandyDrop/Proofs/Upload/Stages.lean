import CandyDrop.Proofs.Address.RoundTrip
import CandyDrop.Proofs.Upload.Merge
import CandyDrop.Proofs.Upload.Schedule

/-!
# An upload in two halves

The first half of an upload ends when the batches to write are known (`Upload.prepare`), the second
half writes them and sets the collection (`Upload.finish`). What each half does to the world and to
the record is said once here: a machine is recorded or created (`Opened`), and then batches are
written and a collection may be set (`finish_runs`).
-/

namespace CandyDrop.Upload

open Script CollectionMint

variable {path : String} {w w' : World} {es : List Event} {payer machine mint : Address}
  {c c' : Cache}

/-! ## The machine -/

/-- The record of a drop with a machine that was just created. -/
def created (machine : Address) (c : Cache) : Cache :=
  { c.resetItems with program := CacheProgram.ofMachine machine }

/-- The machine of an upload is the recorded one or a new one, and the record is saved. -/
inductive Opened (c : Cache) (w : World) : (machine : Address) → (c' : Cache) → (w' : World) → Prop
  | recorded {machine : Address} (h : c.machine = .ok (some machine)) :
      Opened c w machine c.ordered (w.saves c.ordered)
  | created {machine : Address} {t : Transaction} (h : c.machine = .ok none)
      (ht : t.Creates machine) :
      Opened c w machine (created machine c).ordered
        ((w.sends [t] [t]).saves (Upload.created machine c).ordered)

/-- An upload that stops before there is a machine leaves the record. It may have tried to create
one; this succeeded only if the record could not be saved. -/
structure Stopped (w : World) (es : List Event) (w' : World) (sent accepted : List Transaction) :
    Prop where
  world : w' = w.sends sent accepted
  creates_of_sent : ∀ t ∈ sent, ∃ m, t.Creates m
  creates_of_accepted : ∀ t ∈ accepted, ∃ m, t.Creates m
  saves : (∀ e ∈ es, e.saves) → accepted = []

theorem Stopped.same (w : World) (es : List Event) : Stopped w es w [] [] where
  world := by simp [World.sends]
  creates_of_sent := by simp
  creates_of_accepted := by simp
  saves := fun _ => rfl

theorem machine_runs {settings : Settings} {p : Plan} {o : Except Failure (Address × Cache)}
    (hw : w.Follows c.path es w') (h : (Upload.machine payer settings p c).Runs es o) :
    (∃ machine c', o = .ok (machine, c') ∧ Opened c w machine c' w') ∨
      ∃ e sent accepted, o = .error e ∧ ¬e.IsAboutLines ∧ Stopped w es w' sent accepted := by
  have hquiet : (Script.ofExcept Failure.cache c.machine).Quiet := only_ofExcept fun _ _ => id
  rcases hw.stages_of_only h hquiet with ⟨e, rfl, he, rfl⟩ | ⟨m?, _, es₁, rfl, hread, h₁, hw₁⟩
  · exact .inr ⟨e, [], [], rfl, he, .same _ _⟩
  obtain ⟨rfl, ho⟩ := runs_ofExcept_iff.1 hread
  have hm := mapError_eq_ok_iff.1 ho.symm
  cases m? with
  | some machine =>
    obtain ⟨es₂, rfl, h₂⟩ := runs_say_bind_iff.1 h₁
    have hw₂ := hw₁.tail_of_quiet trivial
    rcases hw₂.stages h₂ with ⟨e, rfl, hsave⟩ | ⟨c₁, es₃, es₄, v, rfl, hsave, hv, hend, hw₃⟩
    · rcases hw₂.save hsave with ⟨ho, -⟩ | ⟨reason, ho, rfl, -⟩
      · cases ho
      · cases ho
        exact .inr ⟨_, [], [], rfl, id, .same _ _⟩
    · obtain ⟨rfl, rfl⟩ := runs_done_iff.1 hend
      obtain rfl := World.follows_nil.1 hw₃
      rcases hv.save hsave with ⟨ho, rfl⟩ | ⟨_, ho, -⟩
      · cases ho
        exact .inl ⟨machine, c.ordered, rfl, .recorded hm⟩
      · cases ho
  | none =>
    rcases hw₁.stages h₁ with ⟨e, rfl, hcreate⟩ | ⟨machine, es₂, es₃, v, rfl, hcreate, hv, h₂, hw₂⟩
    · rcases Machine.create_runs hw₁ hcreate with ⟨_, _, ho, -⟩ | ⟨_, sent, ho, he, hsent, rfl⟩
      · cases ho
      · cases ho
        exact .inr ⟨e, sent, [], rfl, he, ⟨rfl, hsent, by simp, fun _ => rfl⟩⟩
    · rcases Machine.create_runs hv hcreate with ⟨_, t, ho, ht, rfl⟩ | ⟨_, _, ho, -⟩
      · cases ho
        have hone : ∀ u ∈ [t], ∃ m, u.Creates m := fun u hu => ⟨_, List.mem_singleton.1 hu ▸ ht⟩
        rcases hw₂.stages h₂ with ⟨e, rfl, hsave⟩ | ⟨c₁, es₄, es₅, v, rfl, hsave, hv, hend, hw₃⟩
        · rcases World.Follows.save (c := created machine c) hw₂ hsave with
            ⟨ho, -⟩ | ⟨reason, ho, rfl, hsaves⟩
          · cases ho
          · cases ho
            refine .inr ⟨_, [t], [t], rfl, id, rfl, hone, hone, fun h => absurd ?_ hsaves⟩
            exact fun e he => h e (by simp [he])
        · obtain ⟨rfl, rfl⟩ := runs_done_iff.1 hend
          obtain rfl := World.follows_nil.1 hw₃
          rcases World.Follows.save (c := created machine c) hv hsave with
            ⟨ho, rfl⟩ | ⟨_, ho, -⟩
          · cases ho
            exact .inl ⟨machine, _, rfl, .created hm ht⟩
          · cases ho
      · cases ho

section

variable {entries : List (Nat × String × String)} {e : Nat × String × String}

theorem get?_created (machine : Address) (c : Cache) (k : String) :
    (created machine c).ordered.items.get? k =
      (c.items.get? k).map fun item => { item with onChain := false } :=
  ((created machine c).get?_ordered k).trans (Table.get?_map _ c.items k)

theorem Opened.record_eq (h : Opened c w machine c' w') :
    w'.record = .bytes (Bytes.ofText c'.render) := by
  cases h <;> rfl

/-- What is sent to open a machine: nothing if it is recorded, else what creates it. -/
inductive Opens (c : Cache) (machine : Address) : List Transaction → Prop
  | recorded (h : c.machine = .ok (some machine)) : Opens c machine []
  | created {t : Transaction} (h : c.machine = .ok none) (ht : t.Creates machine) :
      Opens c machine [t]

theorem Opened.sends (h : Opened c w machine c' w') :
    ∃ ts, w'.sent = w.sent ++ ts ∧ w'.accepted = w.accepted ++ ts ∧ Opens c machine ts := by
  cases h with
  | recorded h => exact ⟨[], by simp [World.saves], by simp [World.saves], .recorded h⟩
  | @created t h ht => exact ⟨[t], rfl, rfl, .created h ht⟩

theorem Opened.path_eq (h : Opened c w machine c' w') : c'.path = c.path := by
  cases h <;> rfl

theorem Opened.out_eq (h : Opened c w machine c' w') : w'.out = w.out := by
  cases h <;> rfl

theorem machine_of_text (h : c.program.candyMachine = machine.text) :
    c.machine = .ok (some machine) := by
  unfold Cache.machine
  rw [h, if_neg (Address.text_ne_empty machine), Address.ofText?_text]

theorem machine_eq_none_iff : c.machine = .ok none ↔ c.program.candyMachine = "" := by
  unfold Cache.machine
  constructor
  · intro h
    split at h
    · assumption
    · split at h <;> cases h
  · intro h
    rw [if_pos h]

section

variable {ts : List Transaction}

theorem Opens.machine_old (h : Opens c machine ts) :
    c.machine = .ok none ∨ c.machine = .ok (some machine) := by
  cases h with
  | recorded h => exact .inr h
  | created h ht => exact .inl h

/-- Opening a machine writes no lines. -/
theorem Opens.lineCalls (h : Opens c machine ts) : ∀ u ∈ ts, u.lineCalls = [] := by
  cases h with
  | recorded h => simp
  | created h ht => simpa using ht.lineCalls

/-- Merging a collection does not change the machine. -/
theorem Opens.of_merge {items : List (String × CacheItem)} (h : Opens (merge items c) machine ts) :
    Opens c machine ts := by
  cases h with
  | recorded h => exact .recorded h
  | created h ht => exact .created h ht

/-- One machine is created if none is recorded, and none otherwise. -/
theorem Opens.createdMachines (h : Opens c machine ts) :
    ts.flatMap Transaction.createdMachines =
      if c.program.candyMachine = "" then [machine] else [] := by
  cases h with
  | recorded h =>
    have hne : c.program.candyMachine ≠ "" := fun hempty => by
      rw [machine_eq_none_iff.2 hempty] at h
      cases h
    rw [if_neg hne, List.flatMap_nil]
  | created h ht =>
    rw [if_pos (machine_eq_none_iff.1 h), List.flatMap_singleton, ht.createdMachines]

end

/-- The record names the machine that is uploaded to. -/
theorem Opened.machine_eq (h : Opened c w machine c' w') : c'.machine = .ok (some machine) := by
  cases h with
  | recorded h => exact h
  | created h ht => exact machine_of_text rfl

theorem Opened.lists (h : Opened c w machine c' w') (hc : c.Lists entries) : c'.Lists entries := by
  intro e he
  obtain ⟨onChain, hitem⟩ := hc e he
  cases h with
  | recorded h => exact ⟨onChain, (c.get?_ordered _).trans hitem⟩
  | created h ht => exact ⟨false, by rw [get?_created, hitem]; rfl⟩

theorem hasWritten_ordered : c.ordered.HasWritten e ↔ c.HasWritten e := by
  unfold Cache.HasWritten
  rw [Cache.get?_ordered]

/-- What a record does not list it does not list when there is a machine. -/
theorem Opened.get?_eq_none {k : String} (h : Opened c w machine c' w')
    (hk : c.items.get? k = none) : c'.items.get? k = none := by
  cases h with
  | recorded h => rw [Cache.get?_ordered, hk]
  | created h ht => rw [get?_created, hk, Option.map_none]

/-- Nothing is written to a new machine yet. -/
theorem not_hasWritten_created : ¬(created machine c).ordered.HasWritten e := by
  unfold Cache.HasWritten
  rw [get?_created]
  cases c.items.get? e.1.repr <;> simp

end

/-! ## The first half -/

/-- What is known when the batches are: the machine, the record and what is left to write. -/
structure Prepared where
  survey : Survey
  machine : Address
  cache : Cache
  batches : List Batch

/-- The first half of an upload. -/
def prepare (payer : Address) (now : Int) (config : Config) (options : Options) :
    Script Prepared := do
  let s ← survey payer now config options
  Script.say "\n[2/3] 🍬 Creating candy machine"
  let (machine, cache) ← Upload.machine payer s.settings s.plan (merge s.plan.items s.cache)
  Script.say "\n[3/3] 📝 Writing config lines"
  let batches ← Script.ofExcept .deploy (batches s.settings s.plan.count cache)
  return ⟨s, machine, cache, batches⟩

/-- The second half of an upload. -/
def finish (payer : Address) (options : Options) (p : Prepared) : Script Address := do
  let cache ← writeLines payer p.machine options.rateLimit p.batches p.cache
  setCollection payer p.machine options.choice p.survey.plan.collection cache
  return p.machine

theorem run_eq_prepare_bind_finish (payer : Address) (now : Int) (config : Config)
    (options : Options) :
    run payer now config options = prepare payer now config options >>= finish payer options := by
  simp only [run, prepare, survey, finish, Script.bind_assoc, Script.pure_eq_done,
    Script.done_bind]

/-- An upload has read everything, and there is a machine and a saved record. -/
structure Ready (config : Config) (options : Options) (es : List Event) (w : World) (s : Survey)
    (machine : Address) (c : Cache) (w' : World) (assets : Assets) (manifests : List Manifest)
    (lines : List (String × String)) : Prop where
  surveyed : Surveyed config options es w.record s assets manifests lines
  opened : Opened (merge s.plan.items s.cache) w machine c w'

theorem Surveyed.mono {config : Config} {options : Options} {fs : List Event} {record : Content}
    {s : Survey} {assets : Assets} {manifests : List Manifest} {lines : List (String × String)}
    (h : Surveyed config options es record s assets manifests lines) (hsub : ∀ e ∈ es, e ∈ fs) :
    Surveyed config options fs record s assets manifests lines :=
  { h with found := h.found.mono hsub }

/-- An upload until there is a machine. -/
def opening (payer : Address) (now : Int) (config : Config) (options : Options) :
    Script (Survey × Address × Cache) := do
  let s ← survey payer now config options
  Script.say "\n[2/3] 🍬 Creating candy machine"
  let opened ← Upload.machine payer s.settings s.plan (merge s.plan.items s.cache)
  return (s, opened)

/-- The batches of an upload that has a machine. -/
def batching (s : Survey) (machine : Address) (cache : Cache) : Script Prepared := do
  Script.say "\n[3/3] 📝 Writing config lines"
  let batches ← Script.ofExcept .deploy (batches s.settings s.plan.count cache)
  return ⟨s, machine, cache, batches⟩

theorem prepare_eq_opening_bind (payer : Address) (now : Int) (config : Config)
    (options : Options) :
    prepare payer now config options =
      opening payer now config options >>= fun x => batching x.1 x.2.1 x.2.2 := by
  simp only [prepare, opening, batching, Script.bind_assoc, Script.pure_eq_done, Script.done_bind]

/-- The path of a record is that of the file it was read from. -/
theorem Surveyed.path_eq {config : Config} {options : Options} {record : Content} {s : Survey}
    {assets : Assets} {manifests : List Manifest} {lines : List (String × String)}
    (h : Surveyed config options es record s assets manifests lines) :
    s.cache.path = options.path :=
  Cache.path_of_ofContent h.cache

/-- An upload opens its machine, or stops without one. -/
theorem opening_runs {now : Int} {config : Config} {options : Options}
    {o : Except Failure (Survey × Address × Cache)} (hw : w.Follows options.path es w')
    (h : (opening payer now config options).Runs es o) :
    (∃ s machine c assets manifests lines, o = .ok (s, machine, c) ∧
        Ready config options es w s machine c w' assets manifests lines) ∨
      ∃ e sent accepted, o = .error e ∧ ¬e.IsAboutLines ∧ Stopped w es w' sent accepted := by
  rcases hw.stages h with ⟨e, rfl, hsurvey⟩ | ⟨s, es₁, es₂, v, rfl, hsurvey, hv, h₂, hw₂⟩
  · obtain rfl := hw.eq_of_only hsurvey (quiet_survey ..)
    exact .inr ⟨e, [], [], rfl, hsurvey.of_error (quiet_survey ..), .same _ _⟩
  obtain rfl := hv.eq_of_only hsurvey (quiet_survey ..)
  obtain ⟨assets, manifests, lines, hsurveyed⟩ := survey_runs hsurvey hv
  have hpath : (merge s.plan.items s.cache).path = options.path := hsurveyed.path_eq
  obtain ⟨es₃, rfl, h₃⟩ := runs_say_bind_iff.1 h₂
  have hw₃ := hw₂.tail_of_quiet trivial
  rcases hw₃.stages h₃ with ⟨e, rfl, hmachine⟩ | ⟨_, es₄, es₅, v₁, rfl, hmachine, hv₁, hend, hw₄⟩
  · rcases machine_runs (hpath ▸ hw₃) hmachine with
      ⟨_, _, ho, -⟩ | ⟨_, sent, accepted, ho, he, hstop⟩
    · cases ho
    · cases ho
      exact .inr ⟨e, sent, accepted, rfl, he,
        { hstop with saves := fun h => hstop.saves fun e he => h e (by simp [he]) }⟩
  obtain ⟨rfl, rfl⟩ := runs_done_iff.1 hend
  obtain rfl := World.follows_nil.1 hw₄
  rcases machine_runs (hpath ▸ hv₁) hmachine with ⟨machine, c, ho, hopened⟩ | ⟨_, _, _, ho, -⟩
  · cases ho
    exact .inl ⟨s, machine, c, assets, manifests, lines, rfl,
      hsurveyed.mono fun e he => by simp [he], hopened⟩
  · cases ho

theorem Ready.mono {config : Config} {options : Options} {s : Survey} {assets : Assets}
    {manifests : List Manifest} {lines : List (String × String)} {fs : List Event}
    (h : Ready config options es w s machine c w' assets manifests lines)
    (hsub : ∀ e ∈ es, e ∈ fs) : Ready config options fs w s machine c w' assets manifests lines :=
  { h with surveyed := h.surveyed.mono hsub }

/-- The record of an upload stays at its path. -/
theorem Ready.path_eq {config : Config} {options : Options} {s : Survey} {assets : Assets}
    {manifests : List Manifest} {lines : List (String × String)}
    (h : Ready config options es w s machine c w' assets manifests lines) : c.path = options.path :=
  h.opened.path_eq.trans h.surveyed.path_eq

theorem batching_runs {s : Survey} {o : Except Failure Prepared} (hw : w.Follows path es w')
    (h : (batching s machine c).Runs es o) :
    w' = w ∧ ((∃ bs, batches s.settings s.plan.count c = .ok bs ∧ o = .ok ⟨s, machine, c, bs⟩) ∨
      ∃ fault, batches s.settings s.plan.count c = .error fault ∧ o = .error (.deploy fault)) := by
  obtain ⟨es₁, rfl, h₁⟩ := runs_say_bind_iff.1 h
  have hw₁ := hw.tail_of_quiet trivial
  rcases hw₁.stages h₁ with ⟨e, rfl, hbatches⟩ | ⟨bs, _, _, v, rfl, hbatches, hv, hend, hw₂⟩
  · obtain ⟨rfl, ho⟩ := runs_ofExcept_iff.1 hbatches
    obtain ⟨fault, hfault, rfl⟩ := mapError_eq_error_iff.1 ho.symm
    exact ⟨hw₁, .inr ⟨fault, hfault, rfl⟩⟩
  · obtain ⟨rfl, ho⟩ := runs_ofExcept_iff.1 hbatches
    obtain rfl := World.follows_nil.1 hv
    obtain ⟨rfl, rfl⟩ := runs_done_iff.1 hend
    exact ⟨hw₂, .inl ⟨bs, mapError_eq_ok_iff.1 ho.symm, rfl⟩⟩

/-- **The first half of an upload** stops without a machine, or there is one and the batches to
write decide how it ends. -/
theorem prepare_runs {now : Int} {config : Config} {options : Options}
    {o : Except Failure Prepared} (hw : w.Follows options.path es w')
    (h : (prepare payer now config options).Runs es o) :
    (∃ s machine c assets manifests lines,
        Ready config options es w s machine c w' assets manifests lines ∧
          ((∃ bs, batches s.settings s.plan.count c = .ok bs ∧ o = .ok ⟨s, machine, c, bs⟩) ∨
            ∃ fault, batches s.settings s.plan.count c = .error fault ∧
              o = .error (.deploy fault))) ∨
      ∃ e sent accepted, o = .error e ∧ ¬e.IsAboutLines ∧ Stopped w es w' sent accepted := by
  rw [prepare_eq_opening_bind] at h
  rcases hw.stages h with ⟨e, rfl, hopening⟩ | ⟨x, es₁, es₂, v, rfl, hopening, hv, hend, hw₂⟩
  · rcases opening_runs hw hopening with ⟨_, _, _, _, _, _, ho, -⟩ | ⟨_, sent, accepted, ho, hstop⟩
    · cases ho
    · cases ho
      exact .inr ⟨e, sent, accepted, rfl, hstop⟩
  · rcases opening_runs hv hopening with
      ⟨s, machine, c, assets, manifests, lines, ho, hready⟩ | ⟨_, _, _, ho, -⟩
    · cases ho
      obtain ⟨rfl, hbatches⟩ := batching_runs hw₂ hend
      refine .inl ⟨s, machine, c, assets, manifests, lines, ?_, hbatches⟩
      exact hready.mono fun e he => List.mem_append_left _ he
    · cases ho

/-! ## What is left to write -/

section

variable {config : Config} {options : Options} {s : Survey} {assets : Assets}
  {manifests : List Manifest} {lines : List (String × String)} {bs : List Batch}

/-- The record lists every entry of the collection. -/
theorem Ready.lists (h : Ready config options es w s machine c w' assets manifests lines) :
    c.Lists (LineCall.entriesFrom 0 lines) := by
  refine h.opened.lists fun e he => ?_
  rw [h.surveyed.items]
  exact ⟨_, get?_merge he⟩

/-- What the record has written, of the collection, is what it had written before if the machine was
recorded, and nothing if it was created. -/
theorem Ready.hasWritten_iff (h : Ready config options es w s machine c w' assets manifests lines)
    {e : Nat × String × String} (he : e ∈ LineCall.entriesFrom 0 lines) :
    c.HasWritten e ↔ s.cache.machine = .ok (some machine) ∧ s.cache.HasWritten e := by
  have hopened := h.opened
  rw [h.surveyed.items] at hopened
  have hmachine : (merge (numbered 0 lines) s.cache).machine = s.cache.machine := rfl
  cases hopened with
  | recorded hm =>
    rw [hasWritten_ordered, ← hmachine, hm]
    unfold Cache.HasWritten
    rw [get?_merge he]
    simp only [Option.some.injEq, CacheItem.mk.injEq, true_and]
    exact decide_eq_true_iff
  | created hm ht =>
    rw [← hmachine, hm]
    simp [not_hasWritten_created]

theorem Ready.size_le (h : Ready config options es w s machine c w' assets manifests lines)
    {count : Nat} (hcount : count ≤ lines.length) :
    ∀ l ∈ c.items.pendingLines count, l.size ≤ Batch.maxBytes := by
  intro l hl
  obtain ⟨_, -, hlines⟩ := h.surveyed.found.lines
  exact hlines.size_le _ (mem_of_mem_pendingLines h.lists hcount hl)

/-- Every batch of an upload is within the limits of a transaction. -/
theorem Ready.limits (h : Ready config options es w s machine c w' assets manifests lines)
    (hbs : batches s.settings s.plan.count c = .ok bs) : ∀ b ∈ bs, b.WithinLimits := by
  unfold batches at hbs
  split at hbs
  · cases hbs
    simp
  · refine Batch.limits_of_ofItems hbs (h.size_le ?_)
    rw [h.surveyed.count]
    rw [UInt64.toNat_ofNat']
    exact Nat.mod_le _ _

theorem Ready.batches_of_hidden
    (h : Ready config options es w s machine c w' assets manifests lines)
    (hhidden : config.hiddenSettings ≠ none) (hbs : batches s.settings s.plan.count c = .ok bs) :
    bs = [] := by
  have hsome : s.settings.hiddenSettings.isSome = true := by
    rw [h.surveyed.hidden]
    exact Option.isSome_iff_ne_none.2 hhidden
  rw [batches, if_pos hsome] at hbs
  cases hbs
  rfl

/-- **The batches of an upload** hold the entries of the collection that the record has not
written, each where it belongs. -/
theorem Ready.sendable (h : Ready config options es w s machine c w' assets manifests lines)
    (hbs : batches s.settings s.plan.count c = .ok bs) (hlen : lines.length ≤ 2 ^ 32) :
    ∀ b ∈ bs, b.Sendable := by
  unfold batches at hbs
  split at hbs
  · cases hbs
    simp
  · have hcount : (UInt64.ofNat s.plan.count).toNat = lines.length := by
      rw [h.surveyed.count]
      exact UInt64.toNat_ofNat_of_lt' (Nat.lt_of_le_of_lt hlen (by decide))
    exact Batch.sendable_of_ofItems hbs (h.size_le (Nat.le_of_eq hcount)) (by omega)

/-- The batches hold what is pending of the collection. -/
theorem Ready.flatten_eq
    (h : Ready config options es w s machine c w' assets manifests lines)
    (hbs : batches s.settings s.plan.count c = .ok bs) (hlen : lines.length < 2 ^ 64)
    (hhidden : config.hiddenSettings = none) :
    bs.flatten = c.items.pendingLines lines.length := by
  have hnone : ¬s.settings.hiddenSettings.isSome = true := by
    rw [h.surveyed.hidden, hhidden]
    simp
  rw [batches, if_neg hnone] at hbs
  have hcount : (UInt64.ofNat s.plan.count).toNat = lines.length := by
    rw [h.surveyed.count]
    exact UInt64.toNat_ofNat_of_lt' hlen
  rw [Batch.flatten_of_ofItems hbs, hcount]

theorem Ready.entries_flatten
    (h : Ready config options es w s machine c w' assets manifests lines)
    (hbs : batches s.settings s.plan.count c = .ok bs) (hlen : lines.length ≤ 2 ^ 32)
    (hhidden : config.hiddenSettings = none) :
    bs.flatten.map ConfigLine.entry =
      (LineCall.entriesFrom 0 lines).filter fun e => ¬c.HasWritten e := by
  have hsize : lines.length < 2 ^ 64 := Nat.lt_of_le_of_lt hlen (by decide)
  rw [h.flatten_eq hbs hsize hhidden, map_entry_pendingLines h.lists hlen]

end

/-! ## The second half -/

open Schedule

/-- Writing the lines of an upload: however it ends, what was done is in the record, and it
succeeds only if everything was done. -/
theorem writeLines_runs {limit : Nat} {bs : List Batch} {o : Except Failure Cache}
    (hw : w.Follows c.path es w') (hout : w.out = [])
    (hrecord : w.record = .bytes (Bytes.ofText c.render))
    (h : (writeLines payer machine limit bs c).Runs es o) :
    ∃ c' t, Written payer machine bs w c es w' c' t ∧
      ((∃ e, o = .error e ∧ ¬e.IsAboutLines) ∨
        o = .ok c' ∧ t.failed = [] ∧ t.left = [] ∧
          w'.record = .bytes (Bytes.ofText c'.render)) := by
  cases bs with
  | nil =>
    obtain ⟨es₁, rfl, h₁⟩ := runs_say_bind_iff.1 h
    have hw₁ := hw.tail_of_quiet trivial
    obtain ⟨rfl, rfl⟩ := runs_done_iff.1 h₁
    obtain rfl := World.follows_nil.1 hw₁
    refine ⟨c, ⟨[], [], [], []⟩, ?_, .inr ⟨rfl, rfl, rfl, hrecord⟩⟩
    exact
      { batches_eq := rfl
        perm := .refl _
        nothingOut := hout
        sent := by simp [Batch.transactions]
        accepted := by simp [Batch.transactions]
        marks := .refl c
        goesOn := fun _ => rfl
        saved := fun _ => hrecord }
  | cons b bs =>
    rcases hw.stages h with ⟨e, rfl, hrun⟩ | ⟨x, es₁, es₂, v, rfl, hrun, hv, hend, hw₂⟩
    · obtain ⟨c', t, hwritten, ⟨reason, ho⟩ | ⟨_, ho, -⟩⟩ := run_runs hrun rfl hout hw
      · cases ho
        exact ⟨c', t, hwritten, .inl ⟨_, rfl, id⟩⟩
      · cases ho
    · obtain ⟨c', t, hwritten, ⟨_, ho⟩ | ⟨outcome, ho, hfile, hsuccess⟩⟩ :=
        run_runs hrun rfl hout hv
      · cases ho
      · cases ho
        cases hs : outcome.success with
        | true =>
          simp only [hs, if_true, pure_eq_done, runs_done_iff] at hend
          obtain ⟨rfl, rfl⟩ := hend
          obtain rfl := World.follows_nil.1 hw₂
          rw [List.append_nil]
          have ⟨hfailed, hleft⟩ := hsuccess.1 hs
          exact ⟨c', t, hwritten, .inr ⟨rfl, hfailed, hleft, hfile⟩⟩
        | false =>
          simp only [hs, Bool.false_eq_true, if_false, runs_fail_iff] at hend
          obtain ⟨rfl, rfl⟩ := hend
          obtain rfl := World.follows_nil.1 hw₂
          rw [List.append_nil]
          exact ⟨c', t, hwritten, .inl ⟨_, rfl, id⟩⟩

theorem setCollection_runs {choice : CollectionChoice} {collection : Option Address}
    {o : Except Failure Unit} (hw : w.Follows c.path es w')
    (h : (setCollection payer machine choice collection c).Runs es o) :
    Settled payer machine c w es w' ∧ (o = .ok () ∨ ∃ e, o = .error e ∧ ¬e.IsAboutLines) := by
  unfold setCollection at h
  split at h
  · next mint =>
    split at h
    · obtain ⟨rfl, rfl⟩ := runs_done_iff.1 h
      obtain rfl := World.follows_nil.1 hw
      exact ⟨.same, .inl rfl⟩
    · obtain ⟨es₁, rfl, h₁⟩ := runs_say_bind_iff.1 h
      have hw₁ := hw.tail_of_quiet trivial
      rcases hw₁.stages h₁ with ⟨e, rfl, hset⟩ | ⟨_, es₂, es₃, v, rfl, hset, hv, hend, hw₂⟩
      · obtain ⟨hsettled, ⟨_, ho⟩ | ⟨_, ho, he⟩⟩ := CollectionMint.setAndRecord_settled hw₁ hset
        · cases ho
        · cases ho
          exact ⟨hsettled.mono fun e he => by simp [he], .inr ⟨e, rfl, he⟩⟩
      · obtain ⟨rfl, rfl⟩ := runs_done_iff.1 hend
        obtain rfl := World.follows_nil.1 hw₂
        have hsettled := (CollectionMint.setAndRecord_settled hv hset).1
        exact ⟨hsettled.mono fun e he => by simp [he], .inl rfl⟩
  · obtain ⟨rfl, rfl⟩ := runs_done_iff.1 h
    obtain rfl := World.follows_nil.1 hw
    exact ⟨.same, .inl rfl⟩

/-- **The second half of an upload** writes batches, and only if all of them are written sets the
collection. -/
theorem finish_runs {options : Options} {p : Prepared} {o : Except Failure Address}
    (hw : w.Follows p.cache.path es w') (hout : w.out = [])
    (hrecord : w.record = .bytes (Bytes.ofText p.cache.render))
    (h : (finish payer options p).Runs es o) :
    ∃ c' t v, Written payer p.machine p.batches w p.cache es v c' t ∧
      ((∃ e, o = .error e ∧ ¬e.IsAboutLines ∧ w' = v) ∨
        t.failed = [] ∧ t.left = [] ∧ v.record = .bytes (Bytes.ofText c'.render) ∧
          Settled payer p.machine c' v es w' ∧
          (o = .ok p.machine ∨ ∃ e, o = .error e ∧ ¬e.IsAboutLines)) := by
  rcases hw.stages h with ⟨e, rfl, hwrite⟩ | ⟨c₁, es₁, es₂, v, rfl, hwrite, hv, h₂, hw₂⟩
  · obtain ⟨c', t, hwritten, ⟨_, ho, he⟩ | ⟨ho, -⟩⟩ := writeLines_runs hw hout hrecord hwrite
    · cases ho
      exact ⟨c', t, w', hwritten, .inl ⟨e, rfl, he, rfl⟩⟩
    · cases ho
  · obtain ⟨c', t, hwritten, ⟨_, ho, -⟩ | ⟨ho, hfailed, hleft, hfile⟩⟩ :=
      writeLines_runs hv hout hrecord hwrite
    · cases ho
    · cases ho
      have hpath : c₁.path = p.cache.path := hwritten.marks.path
      have hsub : ∀ e ∈ es₁, e ∈ es₁ ++ es₂ := fun e he => List.mem_append_left _ he
      refine ⟨c₁, t, v, hwritten.mono hsub, .inr ⟨hfailed, hleft, hfile, ?_⟩⟩
      rcases hw₂.stages h₂ with ⟨e, rfl, hset⟩ | ⟨_, es₃, es₄, v₁, rfl, hset, hv₁, hend, hw₃⟩
      · obtain ⟨hsettled, ho | ⟨_, ho, he⟩⟩ := setCollection_runs (hpath ▸ hw₂) hset
        · cases ho
        · cases ho
          exact ⟨hsettled.mono fun e he => by simp [he], .inr ⟨e, rfl, he⟩⟩
      · obtain ⟨rfl, rfl⟩ := runs_done_iff.1 hend
        obtain rfl := World.follows_nil.1 hw₃
        have hsettled := (setCollection_runs (hpath ▸ hv₁) hset).1
        exact ⟨hsettled.mono fun e he => by simp [he], .inl rfl⟩

/-! ## The whole -/

/-- A run of an upload that got as far as its batches. The world is `v` when there is a machine and
`v₁` when everything that was started is answered. -/
structure Performed (payer : Address) (config : Config) (options : Options) (es : List Event)
    (w : World) (p : Prepared) (v v₁ w' : World) (o : Except Failure Address) (c : Cache)
    (t : Tally) (assets : Assets) (manifests : List Manifest) (lines : List (String × String)) :
    Prop where
  ready : Ready config options es w p.survey p.machine p.cache v assets manifests lines
  batches : Upload.batches p.survey.settings p.survey.plan.count p.cache = .ok p.batches
  written : Written payer p.machine p.batches v p.cache es v₁ c t
  ending : (∃ e, o = .error e ∧ ¬e.IsAboutLines ∧ w' = v₁) ∨
    t.failed = [] ∧ t.left = [] ∧ v₁.record = .bytes (Bytes.ofText c.render) ∧
      Settled payer p.machine c v₁ es w' ∧ (o = .ok p.machine ∨ ∃ e, o = .error e ∧ ¬e.IsAboutLines)

variable {now : Int} {config : Config} {options : Options} {o : Except Failure Address}

/-- An upload that got as far as its batches has performed what follows from them. -/
theorem performed_of_prepared {p : Prepared} {es₁ es₂ : List Event} (hout : w.out = [])
    (hw : w.Follows options.path (es₁ ++ es₂) w')
    (hprepare : (prepare payer now config options).Runs es₁ (.ok p))
    (hfinish : (finish payer options p).Runs es₂ o) :
    ∃ v v₁ c t assets manifests lines, Performed payer config options (es₁ ++ es₂) w p v v₁ w' o c
      t assets manifests lines := by
  obtain ⟨v, hv, hw₂⟩ := World.follows_append.1 hw
  rcases prepare_runs hv hprepare with
    ⟨s, machine, c, assets, manifests, lines, hready, ⟨bs, hbs, ho⟩ | ⟨_, -, ho⟩⟩ | ⟨_, _, _, ho, -⟩
  · cases ho
    obtain ⟨c', t, v₁, hwritten, hending⟩ := finish_runs (p := ⟨s, machine, c, bs⟩)
      (show v.Follows c.path es₂ w' from hready.path_eq ▸ hw₂) (hready.opened.out_eq.trans hout)
      hready.opened.record_eq hfinish
    refine ⟨v, v₁, c', t, assets, manifests, lines, ?_⟩
    exact
      { ready := hready.mono fun e he => List.mem_append_left _ he
        batches := hbs
        written := hwritten.mono fun e he => List.mem_append_right _ he
        ending := hending.imp id fun ⟨hfailed, hleft, hfile, hsettled, ho⟩ =>
          ⟨hfailed, hleft, hfile, hsettled.mono fun e he => List.mem_append_right _ he, ho⟩ }
  · cases ho
  · cases ho

/-- **Every run of an upload** stops without a machine, finds that a line lacks something, or
performs its batches. -/
theorem run_cases (hout : w.out = []) (hw : w.Follows options.path es w')
    (h : (run payer now config options).Runs es o) :
    (∃ e sent accepted, o = .error e ∧ ¬e.IsAboutLines ∧ Stopped w es w' sent accepted) ∨
      (∃ s machine c fault assets manifests lines,
        Ready config options es w s machine c w' assets manifests lines ∧
          batches s.settings s.plan.count c = .error fault ∧ o = .error (.deploy fault)) ∨
      ∃ p v v₁ c t assets manifests lines,
        Performed payer config options es w p v v₁ w' o c t assets manifests lines := by
  rw [run_eq_prepare_bind_finish] at h
  rcases runs_bind_iff.1 h with ⟨e, rfl, hprepare⟩ | ⟨p, es₁, es₂, rfl, hprepare, hfinish⟩
  · rcases prepare_runs hw hprepare with
      ⟨s, machine, c, assets, manifests, lines, hready, ⟨_, -, ho⟩ | ⟨fault, hfault, ho⟩⟩ |
        ⟨_, sent, accepted, ho, he, hstop⟩
    · cases ho
    · cases ho
      exact .inr (.inl ⟨s, machine, c, fault, assets, manifests, lines, hready, hfault, rfl⟩)
    · cases ho
      exact .inl ⟨e, sent, accepted, rfl, he, hstop⟩
  · obtain ⟨v, v₁, c, t, assets, manifests, lines, hperformed⟩ :=
      performed_of_prepared hout hw hprepare hfinish
    exact .inr (.inr ⟨p, v, v₁, c, t, assets, manifests, lines, hperformed⟩)

section

variable {p : Prepared} {v v₁ : World} {t : Tally} {assets : Assets} {manifests : List Manifest}
  {lines : List (String × String)}

/-- What a performed upload sends: the transaction that creates its machine, if there was none, the
batches that were started, and nothing else with lines. -/
theorem Performed.sent_eq
    (h : Performed payer config options es w p v v₁ w' o c t assets manifests lines) :
    ∃ s₀ s₁, w'.sent = w.sent ++ (s₀ ++ (Batch.transactions payer p.machine t.started ++ s₁)) ∧
      ∀ u ∈ s₀ ++ s₁, u.lineCalls = [] := by
  obtain ⟨ts, hsent, -, hopens⟩ := h.ready.opened.sends
  rcases h.ending with ⟨e, -, -, rfl⟩ | ⟨-, -, -, hsettled, -⟩
  · exact ⟨ts, [], by rw [h.written.sent, hsent]; simp, by simpa using hopens.lineCalls⟩
  · obtain ⟨s₁, a₁, hs₁, -, hnone⟩ := hsettled.sends
    refine ⟨ts, s₁, by rw [hs₁, h.written.sent, hsent]; simp, fun u hu => ?_⟩
    rcases List.mem_append.1 hu with hu | hu
    · exact hopens.lineCalls u hu
    · exact (hnone u (List.mem_append_left _ hu)).1

/-- What is accepted of it: likewise, of the batches those that are done. -/
theorem Performed.accepted_eq
    (h : Performed payer config options es w p v v₁ w' o c t assets manifests lines) :
    ∃ a₀ a₁, w'.accepted =
        w.accepted ++ (a₀ ++ (Batch.transactions payer p.machine t.done ++ a₁)) ∧
      (∀ u ∈ a₀ ++ a₁, u.lineCalls = []) ∧ (∀ u ∈ a₁, u.createdMachines = []) ∧
      Opens p.survey.cache p.machine a₀ := by
  obtain ⟨ts, -, haccepted, hopens⟩ := h.ready.opened.sends
  have hmerged : Opens p.survey.cache p.machine ts := hopens.of_merge
  rcases h.ending with ⟨e, -, -, rfl⟩ | ⟨-, -, -, hsettled, -⟩
  · exact ⟨ts, [], by rw [h.written.accepted, haccepted]; simp, by simpa using hopens.lineCalls,
      by simp, hmerged⟩
  · obtain ⟨s₁, a₁, -, ha₁, hnone⟩ := hsettled.sends
    refine ⟨ts, a₁, by rw [ha₁, h.written.accepted, haccepted]; simp, fun u hu => ?_,
      fun u hu => (hnone u (List.mem_append_right _ hu)).2, hmerged⟩
    rcases List.mem_append.1 hu with hu | hu
    · exact hopens.lineCalls u hu
    · exact (hnone u (List.mem_append_right _ hu)).1

end

end CandyDrop.Upload
