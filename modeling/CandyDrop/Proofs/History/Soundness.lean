import CandyDrop.Proofs.Cache.Machine
import CandyDrop.Proofs.Upload.Written

/-!
# What a record says is true

A drop is worked on by deployments and uploads, one after another, each of which may stop half-way.
After any history of them the record is sound (`Cache.Sound`): the machine that it names was
created, what it says is on the chain is what was written last at that position, and the collection
that it names is the one that was set last (`History.sound`).
-/

namespace CandyDrop

open Upload Schedule CollectionMint

namespace Cache

/-- What a record says is true of the transactions that were accepted. -/
structure Sound (c : Cache) (accepted : List Transaction) (machine : Address) : Prop where
  machine_eq : c.program.candyMachine = machine.text
  created : Accepted.Created accepted machine
  stored : ∀ key item, c.items.get? key = some item → item.onChain = true →
    ∃ i, key = Nat.repr i ∧ Accepted.stored? accepted machine i = some (item.name, item.link)
  collection : c.program.collectionMint ≠ "" → ∃ mint : Address,
    Accepted.collection? accepted machine = some mint ∧ c.program.collectionMint = mint.text

variable {c c' : Cache} {ts us : List Transaction} {payer machine mint : Address}
  {t : Transaction}

/-- Transactions that write no lines and set no collection leave a record sound. -/
theorem Sound.append (h : c.Sound ts machine) (hlines : ∀ u ∈ us, u.lineCalls = [])
    (hcollection : ∀ u ∈ us, u.collectionCalls = []) : c.Sound (ts ++ us) machine where
  machine_eq := h.machine_eq
  created := h.created.append_right
  stored := by
    intro key item hget hon
    obtain ⟨i, hkey, hstored⟩ := h.stored key item hget hon
    refine ⟨i, hkey, ?_⟩
    rw [Accepted.stored?_append_of_forall_ne, hstored]
    rw [Accepted.entries_eq_nil hlines]
    simp
  collection := by
    intro hne
    rw [Accepted.collection?_append_of_forall_nil hcollection]
    exact h.collection hne

theorem Sound.append_creates {m : Address} (h : c.Sound ts machine) (ht : t.Creates m) :
    c.Sound (ts ++ [t]) machine :=
  h.append (by simpa using ht.lineCalls) (by simpa using ht.collectionCalls)

/-- A record with the same items and the same machine and collection is as sound. -/
theorem Sound.congr (h : c.Sound ts machine) (hprogram : c'.program = c.program)
    (hitems : ∀ key item, c'.items.get? key = some item → item.onChain = true →
      c.items.get? key = some item) : c'.Sound ts machine where
  machine_eq := by rw [hprogram, h.machine_eq]
  created := h.created
  stored := fun key item hget hon => h.stored key item (hitems key item hget hon) hon
  collection := by
    rw [hprogram]
    exact h.collection

theorem Sound.ordered (h : c.Sound ts machine) : c.ordered.Sound ts machine := by
  refine h.congr rfl fun key item hget _ => ?_
  rwa [get?_ordered] at hget

theorem Sound.merge {items : List (String × CacheItem)} (h : c.Sound ts machine) :
    (merge items c).Sound ts machine :=
  h.congr rfl fun _ _ hget hon => get?_merge_of_onChain hget hon

/-- A record of a machine that was just created, none of whose items is on the chain. -/
theorem sound_of_creates (ht : t.Creates machine)
    (hprogram : c.program = CacheProgram.ofMachine machine)
    (hitems : ∀ key item, c.items.get? key = some item → item.onChain = false) :
    c.Sound (ts ++ [t]) machine where
  machine_eq := by rw [hprogram]; rfl
  created := ⟨t, by simp, by simp [ht.createdMachines]⟩
  stored := by
    intro key item hget hon
    rw [hitems key item hget] at hon
    cases hon
  collection := by
    intro hne
    rw [hprogram] at hne
    exact absurd rfl hne

/-- A collection that was set and recorded. -/
theorem Sound.set (h : c.Sound ts machine) :
    (recorded mint c).ordered.Sound (ts ++ [setting payer machine mint]) machine where
  machine_eq := h.machine_eq
  created := h.created.append_right
  stored := by
    intro key item hget hon
    rw [get?_ordered] at hget
    obtain ⟨i, hkey, hstored⟩ := h.stored key item hget hon
    refine ⟨i, hkey, ?_⟩
    rw [Accepted.stored?_append_of_forall_ne, hstored]
    rw [Accepted.entries_eq_nil (by simpa using lineCalls_setting payer machine mint)]
    simp
  collection := fun _ => ⟨mint, collection?_append_setting payer machine mint ts, rfl⟩

/-- Batches that were done and marked, each line of which was pending. -/
theorem Sound.write {done : List Batch} {entries : List (Nat × String × String)}
    (h : c.Sound ts machine) (hmarks : c.Marks c' (positions done)) (hlists : c.Lists entries)
    (hdone : ∀ e ∈ done.flatten.map ConfigLine.entry, e ∈ entries ∧ ¬c.HasWritten e)
    (hsendable : ∀ b ∈ done, b.Sendable)
    (hnodup : ((done.flatten.map ConfigLine.entry).map (·.1)).Nodup) :
    c'.Sound (ts ++ Batch.transactions payer machine done) machine := by
  have hentries : Accepted.entries machine (Batch.transactions payer machine done) =
      done.flatten.map ConfigLine.entry := Batch.entries_transactions hsendable
  refine ⟨?_, h.created.append_right, ?_, ?_⟩
  · rw [hmarks.program, h.machine_eq]
  · intro key item hget hon
    rw [hmarks.get?] at hget
    obtain ⟨old, hold, rfl⟩ := Option.map_eq_some_iff.1 hget
    by_cases hwas : old.onChain = true
    · -- An item that was on the chain before: nothing that was done is at its position.
      obtain ⟨i, rfl, hstored⟩ := h.stored key old hold hwas
      refine ⟨i, rfl, ?_⟩
      rw [Accepted.stored?_append_of_forall_ne, hstored]
      rw [hentries]
      rintro e he rfl
      obtain ⟨hmem, hpending⟩ := hdone e he
      obtain ⟨onChain, hitem⟩ := hlists e hmem
      have heq : old = ⟨e.2.1, e.2.2, onChain⟩ := Option.some.inj (hold.symm.trans hitem)
      subst heq
      obtain rfl : onChain = true := hwas
      exact hpending hitem
    · -- An item that is on the chain now: its own line was done.
      have hmarked : (positions done).any (fun i => decide (key = i.repr)) = true := by
        simpa [hwas] using hon
      obtain ⟨i, hi, hkey⟩ := List.any_eq_true.1 hmarked
      obtain rfl := of_decide_eq_true hkey
      obtain ⟨e, he, rfl⟩ := mem_positions_iff.1 hi
      obtain ⟨onChain, hitem⟩ := hlists e (hdone e he).1
      have heq : old = ⟨e.2.1, e.2.2, onChain⟩ := Option.some.inj (hold.symm.trans hitem)
      subst heq
      refine ⟨e.1, rfl, ?_⟩
      apply Accepted.stored?_append_of_mem
      · rw [hentries]
        exact hnodup
      · rw [hentries]
        exact he
  · intro hne
    rw [Accepted.collection?_append_of_forall_nil
      (Batch.collectionCalls_transactions payer machine done)]
    rw [hmarks.program] at hne ⊢
    exact h.collection hne

end Cache

/-! ## What a command finds and leaves -/

namespace World

/-- The state of a drop between commands: nothing is out, and the record, if there is one, is
sound. -/
structure Sound (w : World) : Prop where
  nothingOut : w.out = []
  record : w.record = .missing ∨ ∃ (c : Cache) (machine : Address),
    w.record = .bytes (Bytes.ofText c.render) ∧ c.Sound w.accepted machine

variable {w w' : World} {c : Cache} {payer machine m : Address} {path env name : String}
  {t : Transaction} {sent : List Transaction} {es : List Event} {place : CachePlace}

theorem sound_start : (start .missing).Sound := ⟨rfl, .inl rfl⟩

/-- A record that is loaded from a sound world is empty or sound. -/
theorem Sound.load (h : w.Sound) (hload : Cache.ofContent path env name true w.record = .ok c) :
    (c.program.candyMachine = "" ∧ ∀ key, c.items.get? key = none) ∨
      ∃ machine, c.Sound w.accepted machine := by
  rcases h.record with hmissing | ⟨c₀, machine, hrecord, hsound⟩
  · rw [hmissing] at hload
    cases hload
    exact .inl ⟨rfl, fun _ => rfl⟩
  · rw [hrecord, Cache.ofContent, Cache.ofBytes?_render] at hload
    cases hload
    exact .inr ⟨machine, hsound.congr rfl fun _ _ hget _ => hget⟩

theorem sound_saves (hout : w.out = []) (h : c.Sound w.accepted machine) : (w.saves c).Sound :=
  ⟨hout, .inr ⟨c, machine, rfl, h⟩⟩

/-- Transactions that are refused leave a world sound. -/
theorem Sound.refuse (h : w.Sound) (sent : List Transaction) : (w.sends sent []).Sound := by
  refine ⟨h.nothingOut, ?_⟩
  simpa [sends] using h.record

/-- A machine that no record names leaves a world sound. -/
theorem Sound.create (h : w.Sound) (ht : t.Creates m) : (w.sends sent [t]).Sound := by
  refine ⟨h.nothingOut, ?_⟩
  rcases h.record with hmissing | ⟨c, machine, hrecord, hsound⟩
  · exact .inl hmissing
  · exact .inr ⟨c, machine, hrecord, hsound.append_creates ht⟩

/-- Setting a collection leaves a world sound, if the record can be saved. -/
theorem sound_of_settled (h : Settled payer machine c w es w') (hout : w.out = [])
    (hrecord : w.record = .bytes (Bytes.ofText c.render)) (hc : c.Sound w.accepted machine)
    (hsaves : ∀ e ∈ es, e.saves) : w'.Sound := by
  have hw : w.Sound := ⟨hout, .inr ⟨c, machine, hrecord, hc⟩⟩
  cases h with
  | same => exact hw
  | refused mint => exact hw.refuse _
  | unsaved mint h => exact absurd hsaves h
  | saved mint =>
    apply sound_saves
    · exact hout
    · exact hc.set

/-! ## Deployments -/

/-- Nothing is on the chain of a machine that was just recorded. -/
theorem Sound.record_fresh {key : String} {item : CacheItem} (h : w.Sound)
    (hload : Cache.ofContent path env name true w.record = .ok c)
    (hget : (Deploy.record machine c).items.get? key = some item) : item.onChain = false := by
  unfold Deploy.record at hget
  split at hget
  · next hempty =>
    rcases h.load hload with ⟨-, hnone⟩ | ⟨m, hsound⟩
    · rw [hnone key] at hget
      cases hget
    · rw [hsound.machine_eq] at hempty
      exact absurd hempty (Address.text_ne_empty m)
  · rw [Cache.resetItems, Table.get?_map] at hget
    obtain ⟨old, -, rfl⟩ := Option.map_eq_some_iff.1 hget
    rfl

/-- **A deployment** leaves a sound world sound. -/
theorem Sound.deploy (h : w.Sound) (hdeployed : Deploy.Deployed payer place w es w')
    (hsaves : ∀ e ∈ es, e.saves) : w'.Sound := by
  cases hdeployed with
  | stopped hsent => exact h.refuse _
  | unrecorded ht => exact h.create ht
  | @recorded machine t c v ht hload hsettled =>
    have hrecorded : (Deploy.record machine c).Sound (w.accepted ++ [t]) machine := by
      have hprogram : (Deploy.record machine c).program = CacheProgram.ofMachine machine := rfl
      apply Cache.sound_of_creates ht hprogram
      intro key item hget
      exact h.record_fresh hload hget
    exact sound_of_settled hsettled h.nothingOut rfl hrecorded.ordered hsaves

/-! ## Uploads -/

/-- When the machine of an upload is there, the record is sound. -/
theorem Sound.open {items : List (String × CacheItem)} {c' : Cache} {v : World} (h : w.Sound)
    (hload : Cache.ofContent path env name true w.record = .ok c)
    (hopened : Opened (merge items c) w machine c' v) : c'.Sound v.accepted machine := by
  cases hopened with
  | recorded hm =>
    rcases h.load hload with ⟨hempty, -⟩ | ⟨m, hsound⟩
    · have hnone : (merge items c).machine = .ok none := if_pos hempty
      rw [hnone] at hm
      cases hm
    · have hsame : (merge items c).machine = .ok (some m) := machine_of_text hsound.machine_eq
      rw [hsame] at hm
      cases hm
      exact hsound.merge.ordered
  | created hm ht =>
    have hprogram : (created machine (merge items c)).ordered.program =
        CacheProgram.ofMachine machine := rfl
    apply Cache.sound_of_creates ht hprogram
    intro key item hget
    rw [get?_created] at hget
    obtain ⟨old, -, rfl⟩ := Option.map_eq_some_iff.1 hget
    rfl

section

variable {config : Config} {options : Options} {v v₁ : World} {o : Except Failure Address}
  {p : Prepared} {tally : Tally} {assets : Assets} {manifests : List Manifest}
  {lines : List (String × String)}

/-- **An upload that performs its batches** leaves a sound world sound. -/
theorem Sound.perform (h : w.Sound)
    (hperformed : Performed payer config options es w p v v₁ w' o c tally assets manifests lines)
    (hsaves : ∀ e ∈ es, e.saves) (hlen : lines.length ≤ 2 ^ 32) : w'.Sound := by
  have hready := hperformed.ready
  have hwritten := hperformed.written
  have hopened : p.cache.Sound v.accepted p.machine :=
    h.open hready.surveyed.cache hready.opened
  have hsendable := hready.sendable hperformed.batches hlen
  obtain ⟨hpending, hnodup⟩ := hperformed.pending hlen
  obtain ⟨rest, hperm⟩ := hperformed.subperm
  have hsound : c.Sound v₁.accepted p.machine := by
    rw [hwritten.accepted]
    apply hopened.write hwritten.marks hready.lists
    · intro e he
      exact hpending e (hperm.mem_iff.1 (List.mem_append_left _ he))
    · intro b hb
      exact hsendable b (hperformed.mem_batches_of_mem_done b hb)
    · have hall := (hperm.map (·.1)).nodup_iff.2 hnodup
      rw [List.map_append, List.nodup_append] at hall
      exact hall.1
  have hrecord := hwritten.saved hsaves
  rcases hperformed.ending with ⟨_, -, -, rfl⟩ | ⟨-, -, -, hsettled, -⟩
  · exact ⟨hwritten.nothingOut, .inr ⟨c, p.machine, hrecord, hsound⟩⟩
  · exact sound_of_settled hsettled hwritten.nothingOut hrecord hsound hsaves

end

/-- **An upload** leaves a sound world sound. -/
theorem Sound.upload {config : Config} {options : Options} {now : Int}
    {o : Except Failure Address} (h : w.Sound)
    (hrun : (Upload.run payer now config options).Runs es o) (hw : w.Follows options.path es w')
    (hsaves : ∀ e ∈ es, e.saves) (hfits : ∀ e ∈ es, e.fits) : w'.Sound := by
  rcases Upload.run_cases h.nothingOut hw hrun with
    ⟨_, sent, accepted, -, -, hstop⟩ |
    ⟨s, machine, c, fault, assets, manifests, lines, hready, -, -⟩ |
    ⟨p, v, v₁, c, tally, assets, manifests, lines, hperformed⟩
  · obtain rfl := hstop.world
    obtain rfl := hstop.saves hsaves
    exact h.refuse sent
  · have hopened := h.open hready.surveyed.cache hready.opened
    have hout := hready.opened.out_eq.trans h.nothingOut
    exact ⟨hout, .inr ⟨c, machine, hready.opened.record_eq, hopened⟩⟩
  · apply h.perform hperformed hsaves
    obtain ⟨entries, hlisted, hentries⟩ := hperformed.ready.surveyed.found.listed
    rw [hperformed.ready.surveyed.found.length_eq.2]
    exact Event.length_le_of_fits (hfits _ hlisted) hentries

end World

/-! ## Histories -/

/-- The worlds that are reached from one without a record by deployments and uploads that keep
their record at the same place. Anything else may differ from command to command. Every file can be
written, and every event of an upload satisfies `P`. -/
inductive History (place : CachePlace) (P : Event → Prop) : World → Prop
  | start : History place P (.start .missing)
  | deploy {w w' : World} {payer : Address} {now : Int} {config : Config}
      {choice : CollectionChoice} {es : List Event} {o : Except Failure Address}
      (hw : History place P w) (hrun : (Deploy.run payer now config place choice).Runs es o)
      (hfollows : w.Follows place.path es w') (hsaves : ∀ e ∈ es, e.saves) : History place P w'
  | upload {w w' : World} {payer : Address} {now : Int} {config : Config} {directory : String}
      {choice : CollectionChoice} {rateLimit : Nat} {es : List Event}
      {o : Except Failure Address} (hw : History place P w)
      (hrun : (Upload.run payer now config ⟨directory, place, choice, rateLimit⟩).Runs es o)
      (hfollows : w.Follows place.path es w') (hsaves : ∀ e ∈ es, e.saves)
      (hP : ∀ e ∈ es, P e) : History place P w'

theorem History.sound {place : CachePlace} {w : World} (h : History place (·.fits) w) :
    w.Sound := by
  induction h with
  | start => exact World.sound_start
  | deploy _ hrun hfollows hsaves ih =>
    exact ih.deploy (Deploy.run_runs hfollows hrun) hsaves
  | upload _ hrun hfollows hsaves hfits ih => exact ih.upload hrun hfollows hsaves hfits

/-- **The record of a drop is sound after any history.** Start without a record and let deployments
and uploads be run in any order, each with whatever configuration and options and whatever collection
of at most `2 ^ 32` manifests, each ending in whatever way. Afterwards there is no record, or it can be read and the machine that it
names was created by one of the transactions that were accepted; every item that it takes for
written has the name and the link that were stored last at its position of this machine; and if it
names a collection, this is the one that was set last for the machine.

The transactions in question are those that were accepted, so what was refused has no effect. That
the keys of machines are new is not needed, since a machine does not lose its lines by being created
once more. -/
theorem History.record_sound {place : CachePlace} {w : World} (h : History place (·.fits) w) :
    w.record = .missing ∨ ∃ bs cache machine, w.record = .bytes bs ∧
      Cache.ofBytes? place.path bs = some cache ∧
      cache.program.candyMachine = Address.text machine ∧
      Accepted.Created w.accepted machine ∧
      (∀ key item, cache.items.get? key = some item → item.onChain = true →
        ∃ i, key = Nat.repr i ∧
          Accepted.stored? w.accepted machine i = some (item.name, item.link)) ∧
      (cache.program.collectionMint ≠ "" → ∃ mint : Address,
        Accepted.collection? w.accepted machine = some mint ∧
          cache.program.collectionMint = mint.text) := by
  rcases h.sound.record with hmissing | ⟨c, machine, hrecord, hsound⟩
  · exact .inl hmissing
  · exact .inr ⟨_, { c with path := place.path }, machine, hrecord,
      Cache.ofBytes?_render c place.path, hsound.machine_eq, hsound.created, hsound.stored,
      hsound.collection⟩

/-- A deployment and then an upload of one item, which is written to the machine of the
deployment. -/
theorem History.record_sound_one :
    ∃ w bs cache machine, History Sample.place (·.fits) w ∧ w.record = .bytes bs ∧
      Cache.ofBytes? Sample.place.path bs = some cache ∧
      cache.program.candyMachine = Address.text machine ∧
      Accepted.Created w.accepted machine ∧
      cache.items.get? "0" = some ⟨"A", "https://x/0", true⟩ ∧
      ∃ i, "0" = Nat.repr i ∧
        Accepted.stored? w.accepted machine i = some ("A", "https://x/0") := by
  have hdeploy := Ledger.runs_transcript Sample.deploy (Sample.ledger "A")
  have hupload := Ledger.runs_transcript Sample.upload
    ((Sample.ledger "A").run Sample.deploy).2
  have hchecks :
      let es₁ := (Ledger.transcript Sample.deploy (Sample.ledger "A")).1
      let es₂ := (Ledger.transcript Sample.upload ((Sample.ledger "A").run Sample.deploy).2).1
      let w₁ := (World.start .missing).after Sample.place.path es₁
      let w₂ := w₁.after Sample.place.path es₂
      (World.start .missing).permitsAll Sample.place.path es₁ = true ∧
      w₁.permitsAll Sample.place.path es₂ = true ∧
      (∀ e ∈ es₁, e.saves) ∧ (∀ e ∈ es₂, e.saves) ∧ (∀ e ∈ es₂, e.fits) ∧
      ((Cache.ofContent Sample.place.path "" "" false w₂.record).toOption.bind
        fun c => c.items.get? "0") = some ⟨"A", "https://x/0", true⟩ := by decide +kernel
  obtain ⟨hpermits₁, hpermits₂, hsaves₁, hsaves₂, hfits, hitem⟩ := hchecks
  have hhistory := (History.start.deploy hdeploy (World.follows_after hpermits₁) hsaves₁).upload
    hupload (World.follows_after hpermits₂) hsaves₂ hfits
  rcases hhistory.record_sound with
    hmissing | ⟨bs, cache, machine, hrecord, hcache, hmachine, hcreated, hstored, -⟩
  · rw [hmissing] at hitem
    cases hitem
  · simp only [hrecord, Cache.ofContent, hcache, Except.toOption, Option.bind_some] at hitem
    obtain ⟨i, hi, hlast⟩ := hstored _ _ hitem rfl
    exact ⟨_, bs, cache, machine, hhistory, hrecord, hcache, hmachine, hcreated, hitem, i, hi,
      hlast⟩

/-- Without a bound on the collections the record need not be sound. A deployment sets up a machine
for `2 ^ 32 + 1` items, an upload writes all but the last of them, and another upload writes the last
one, with the position 0. The record still says that the first item is on the chain, but the name and
link that were stored last at its position are those of the last one. -/
theorem History.record_overwritten :
    ∃ w bs cache machine, History Sample.place (fun _ => True) w ∧ w.record = .bytes bs ∧
      Cache.ofBytes? Sample.place.path bs = some cache ∧
      cache.program.candyMachine = Address.text machine ∧
      cache.items.get? "0" = some ⟨"A", "https://x/0", true⟩ ∧
      Accepted.stored? w.accepted machine 0 = some ("A", "https://x/4294967296") ∧
      ∀ i, "0" = Nat.repr i →
        Accepted.stored? w.accepted machine i ≠ some ("A", "https://x/0") := by
  -- The rent of so large a machine is more than the payer of the sample has.
  let s := Deploy.run Sample.payer 0 Sample.wide Sample.place Sample.choice
  let l : Ledger := { Sample.ledger "A" with balance := 10000000000000000 }
  have hdeploy := Ledger.runs_transcript s l
  have hchecks :
      let es := (Ledger.transcript s l).1
      let w := (World.start .missing).after Sample.place.path es
      (World.start .missing).permitsAll Sample.place.path es = true ∧
      (∀ e ∈ es, e.saves) ∧
      ((Cache.ofContent Sample.place.path "" "" false w.record).toOption.map
        fun c => c.items.get? "4294967296") = some none := by decide +kernel
  obtain ⟨hpermits, hsaves, hnone⟩ := hchecks
  have hfollows := World.follows_after hpermits
  generalize (Ledger.transcript s l).1 = es₁ at *
  have hhistory : History Sample.place (fun _ => True) _ :=
    History.start.deploy hdeploy hfollows hsaves
  have hsound := World.sound_start.deploy (Deploy.run_runs hfollows hdeploy) hsaves
  rcases hsound.record with hmissing | ⟨c, machine, hrecord, hc⟩
  · rw [hmissing] at hnone
    cases hnone
  rw [hrecord] at hnone
  simp only [Cache.ofContent, Cache.ofBytes?_render, Except.toOption, Option.map_some,
    Option.some.injEq] at hnone
  obtain ⟨es₂, w₂, c₂, hrun₂, hw₂, hsmooth₂, hout₂, hrecord₂, hlacks⟩ :=
    Sample.exists_lacks (machine_of_text hc.machine_eq) hnone hsound.nothingOut hrecord
  obtain ⟨es₃, es₄, p, w₃, c₃, h⟩ := Sample.exists_overflow hlacks hout₂ hrecord₂
  have hhistory₂ := hhistory.upload hrun₂ hw₂ (fun e he => (hsmooth₂ e he).saves) fun _ _ => trivial
  have hhistory₃ := hhistory₂.upload h.runs h.follows (fun e he => (h.smooth e he).saves)
    fun _ _ => trivial
  have hmachine : c₃.program.candyMachine = machine.text :=
    Base58.isForm_iff.1 (Cache.machine_eq_some_iff.1 h.lacks.machine_eq)
  refine ⟨w₃, _, { c₃ with path := Sample.place.path }, machine, hhistory₃, h.record,
    Cache.ofBytes?_render c₃ _, hmachine, h.lacks.written 0 (by decide), h.stored, fun i hi => ?_⟩
  obtain rfl : 0 = i := Text.repr_inj.1 hi
  rw [h.stored]
  decide

end CandyDrop
