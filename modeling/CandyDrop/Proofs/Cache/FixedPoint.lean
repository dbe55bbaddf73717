import CandyDrop.Proofs.Cache.Marks
import CandyDrop.Proofs.Cache.RoundTrip
import CandyDrop.Proofs.Script.Runs
import CandyDrop.Proofs.Text.ByteOrder

/-!
# What is written and loaded is written again

A record is written with its items in ascending order, so what is loaded from its file need not be
the record, but it means the same (`Cache.Restores`): no key is lost or duplicated, and the keys
ascend by their bytes. Since it is in order already, the same text is written of it.

A record can be spelled in many ways, and all of them are loaded. `Cache.Rewritten` says what the
text of a file is once the record in it was loaded and written. After one write it is spelled in the
way in which it is written from then on (`Cache.write_load_write`).
-/

namespace CandyDrop

namespace Table

variable {α : Type}

/-- In a table that is in order every key comes before the later ones. -/
theorem ascending_sorted (t : Table α) :
    t.sorted.keys.Pairwise fun a b => Bytes.ofText a < Bytes.ofText b := by
  have hle : t.sorted.keys.Pairwise fun a b => a ≤ b :=
    List.pairwise_map.2 ((pairwise_sorted t).imp of_decide_eq_true)
  have hne : t.sorted.keys.Pairwise fun a b => a ≠ b := t.sorted.nodup_keys
  refine (hle.and hne).imp fun ⟨hab, hne⟩ => Bytes.ofText_lt_ofText_iff.2 ?_
  exact (Std.le_iff_lt_or_eq.1 hab).resolve_right hne

end Table

namespace Cache

/-- A record that means what `c` means, with its keys in ascending order of their bytes. -/
structure Restores (loaded c : Cache) : Prop where
  program : loaded.program = c.program
  env : loaded.env = c.env
  cacheName : loaded.cacheName = c.cacheName
  get? : ∀ k, loaded.items.get? k = c.items.get? k
  perm : loaded.items.entries.Perm c.items.entries
  ascending : loaded.items.keys.Pairwise fun a b => Bytes.ofText a < Bytes.ofText b

/-- To write the record, whichever file it goes to, is to write this text. -/
def Writes (c : Cache) (text : String) : Prop :=
  ∀ path es, (∃ o, (c.tryWrite path).Runs es o) ↔ ∃ answer, es = [⟨.write path text, answer⟩]

/-- The record that is loaded if its file has these bytes. -/
def LoadsFrom (loaded : Cache) (folder env name : String) (create : Bool) (bs : Bytes) : Prop :=
  (load folder env name create).Runs [⟨.read (filePath folder env name), .bytes bs⟩] (.ok loaded)

/-- The text that a file with these bytes has once its record was loaded and written. -/
def Rewritten (folder env name : String) (create : Bool) (bs : Bytes) (text : String) : Prop :=
  ∃ c : Cache, c.LoadsFrom folder env name create bs ∧ c.Writes text

variable {c loaded : Cache} {folder env name text : String} {create : Bool} {bs : Bytes}

theorem writes_render_ordered (c : Cache) : c.Writes c.ordered.render := by
  intro path es
  rw [tryWrite, Script.request, Script.ask_bind]
  simp only [Script.runs_ask_iff]
  constructor
  · rintro ⟨o, answer, es', rfl, h⟩
    cases answer <;> obtain ⟨rfl, -⟩ := Script.runs_done_iff.1 h
    · exact ⟨none, rfl⟩
    · exact ⟨some _, rfl⟩
  · rintro ⟨answer, rfl⟩
    cases answer
    · exact ⟨_, none, [], rfl, .done _⟩
    · exact ⟨_, some _, [], rfl, .done _⟩

theorem writes_iff : c.Writes text ↔ text = c.ordered.render := by
  constructor
  · intro h
    obtain ⟨o, hrun⟩ := (h c.path [⟨.write c.path text, none⟩]).2 ⟨none, rfl⟩
    obtain ⟨answer, heq⟩ := (writes_render_ordered c c.path _).1 ⟨o, hrun⟩
    have hrequest := congrArg Event.request (List.cons.inj heq).1
    exact (Request.write.inj hrequest).2
  · rintro rfl
    exact writes_render_ordered c

theorem loadsFrom_iff :
    loaded.LoadsFrom folder env name create bs ↔
      ofBytes? (filePath folder env name) bs = some loaded := by
  rw [LoadsFrom, load, Script.request, Script.ask_bind, Script.runs_ask_iff]
  constructor
  · rintro ⟨content, es, hes, h⟩
    cases hes
    have hcontent := mapError_eq_ok_iff.1 (Script.runs_ofExcept_iff.1 h).2.symm
    simp only [ofContent] at hcontent
    split at hcontent
    · next c hc =>
      cases hcontent
      exact hc
    · cases hcontent
  · intro h
    refine ⟨_, [], rfl, Script.runs_ofExcept_iff.2 ⟨rfl, ?_⟩⟩
    rw [ofContent, h]
    rfl

theorem loadsFrom_render_iff :
    loaded.LoadsFrom folder env name create (Bytes.ofText c.render) ↔
      loaded = { c with path := filePath folder env name } := by
  rw [loadsFrom_iff, ofBytes?_render, Option.some.injEq, eq_comm]

theorem restores_ordered (c : Cache) (path : String) : { c.ordered with path }.Restores c :=
  ⟨rfl, rfl, rfl, get?_ordered c, Table.perm_of_get? (get?_ordered c),
    Table.ascending_sorted c.items⟩

theorem render_path (c : Cache) (path : String) : render { c with path } = c.render := rfl

theorem ordered_path (c : Cache) (path : String) :
    ordered { c with path } = { c.ordered with path } := rfl

/-- Neither the path nor the order of the items is a part of what is written. -/
theorem writes_ordered_iff {path : String} :
    Writes { c.ordered with path } text ↔ c.Writes text := by
  rw [writes_iff, writes_iff, ordered_path, ordered_ordered, render_path]

/-- Once a record is written, its file is spelled as it is written. -/
theorem rewritten_ofText_iff {next : String} (h : c.Writes text) :
    Rewritten folder env name create (Bytes.ofText text) next ↔ next = text := by
  rw [Rewritten, writes_iff.1 h]
  simp only [loadsFrom_render_iff, exists_eq_left]
  exact writes_ordered_iff.trans writes_iff

/-- **A record survives its file.** What is loaded from the text that is written of a record means
what the record means, and the same text is written of it. A file that can be loaded, however it is
spelled, has its final text after one write. -/
theorem write_load_write :
    (∀ (c : Cache) (folder env name : String) (create : Bool), ∃ (text : String) (loaded : Cache),
      c.Writes text ∧ loaded.LoadsFrom folder env name create (Bytes.ofText text) ∧
        loaded.Restores c ∧ loaded.Writes text) ∧
    ∀ (folder env name : String) (create : Bool) (bs : Bytes),
      (∃ c : Cache, c.LoadsFrom folder env name create bs) →
        ∃ text, Rewritten folder env name create bs text ∧
          ∀ next, Rewritten folder env name create (Bytes.ofText text) next ↔ next = text := by
  constructor
  · intro c folder env name create
    have hwrites := writes_render_ordered c
    exact ⟨c.ordered.render, _, hwrites, loadsFrom_render_iff.2 rfl, restores_ordered c _,
      writes_ordered_iff.2 hwrites⟩
  · rintro folder env name create bs ⟨c, hc⟩
    have hwrites := writes_render_ordered c
    exact ⟨c.ordered.render, ⟨c, hc, hwrites⟩, fun _ => rewritten_ofText_iff hwrites⟩

/-- A record with two items, the second one before the first. -/
def backwards : Cache :=
  { fresh "" "devnet" "temp" with
    items := Table.ofList
      [("1", ⟨"B", "https://x/é", false⟩), ("0", ⟨"A", "https://x/0", true⟩)] }

/-- A file with the items out of order is read, and written in order from then on. -/
theorem write_load_write_backwards :
    (∃ c : Cache, c.LoadsFrom "" "devnet" "temp" false (Bytes.ofText backwards.render)) ∧
    (∃ text, Rewritten "" "devnet" "temp" false (Bytes.ofText backwards.render) text ∧
      ∀ next, Rewritten "" "devnet" "temp" false (Bytes.ofText text) next ↔ next = text) ∧
    backwards.ordered.items.keys = ["0", "1"] := by
  have hload : ∃ c : Cache, c.LoadsFrom "" "devnet" "temp" false (Bytes.ofText backwards.render) :=
    ⟨_, loadsFrom_render_iff.2 rfl⟩
  have hkeys : backwards.ordered.items.keys.Perm ["0", "1"] :=
    ((restores_ordered backwards "").perm.map Prod.fst).trans (.swap _ _ _)
  have hsorted : backwards.ordered.items.keys.Pairwise (· ≤ ·) :=
    List.pairwise_map.2 ((Table.pairwise_sorted _).imp of_decide_eq_true)
  exact ⟨hload, write_load_write.2 _ _ _ _ _ hload,
    hkeys.eq_of_pairwise (fun _ _ _ _ => String.le_antisymm) hsorted (by decide)⟩

end Cache

end CandyDrop
