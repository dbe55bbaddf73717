import CandyDrop.Cache.File
import CandyDrop.Proofs.Json.Record
import CandyDrop.Proofs.Json.RoundTrip

/-!
# A record that is written is read back

The text of a record, read as the content of its file, is that record (`ofBytes?_render`): the
program, every item under its key and in its place, and the texts around them. A record is saved
with its items in ascending order, so what is loaded after a save is the ordered record.
-/

namespace CandyDrop

namespace Table

variable {α : Type}

theorem ext_entries {t u : Table α} (h : t.entries = u.entries) : t = u := by
  cases t
  cases u
  simpa using h

theorem put_of_not_mem {k : String} {v : α} {es : List (String × α)}
    (h : k ∉ es.map Prod.fst) : put k v es = es ++ [(k, v)] := by
  induction es with
  | nil => rfl
  | cons e es ih =>
    rw [List.map_cons, List.mem_cons, not_or] at h
    rw [put, if_neg (Ne.symm h.1), ih h.2, List.cons_append]

theorem entries_foldl_insert (t : Table α) {es : List (String × α)}
    (h : ((t.entries ++ es).map Prod.fst).Nodup) :
    (es.foldl (fun t e => t.insert e.1 e.2) t).entries = t.entries ++ es := by
  induction es generalizing t with
  | nil => simp
  | cons e es ih =>
    have hnew : e.1 ∉ t.entries.map Prod.fst := by
      intro hmem
      rw [List.map_append, List.map_cons, List.nodup_append] at h
      exact h.2.2 e.1 hmem e.1 (List.mem_cons_self ..) rfl
    have hput : (t.insert e.1 e.2).entries = t.entries ++ [e] := put_of_not_mem hnew
    rw [List.foldl_cons, ih _ (by rw [hput]; simpa using h), hput]
    simp

/-- Collecting the entries of a table gives that table. -/
theorem ofList_entries (t : Table α) : ofList t.entries = t := by
  apply ext_entries
  rw [ofList, entries_foldl_insert empty (by simpa [empty] using t.nodup_keys)]
  rfl

end Table

namespace CacheProgram

theorem ofJson?_toJson (p : CacheProgram) : ofJson? p.toJson = some p := by
  rw [ofJson?, toJson, Json.fields?_object rfl]
  rfl

end CacheProgram

namespace CacheItem

theorem ofJson?_toJson (i : CacheItem) : ofJson? i.toJson = some i := by
  rw [ofJson?, toJson, Json.fields?_object rfl]
  rfl

theorem mapM_ofJson?_toJson (es : List (String × CacheItem)) :
    (es.map fun e => (e.1, e.2.toJson)).mapM
        (fun (m : String × Json) => (ofJson? m.2).map fun item => (m.1, item)) = some es := by
  induction es with
  | nil => rfl
  | cons e es ih => simp [ofJson?_toJson, ih]

theorem tableOfJson?_object (t : Table CacheItem) :
    tableOfJson? (.object (t.map toJson).entries) = some t := by
  have hread := mapM_ofJson?_toJson t.entries
  rw [tableOfJson?]
  simp only [Table.map, Option.bind_eq_bind, Option.pure_def]
  rw [hread, Option.bind_some, Table.ofList_entries]

theorem plain_toJson (d : Nat) (i : CacheItem) : Json.Plain (d + 1) i.toJson := by
  refine .object fun m hm => ?_
  simp only [List.mem_cons, List.not_mem_nil, or_false] at hm
  obtain rfl | rfl | rfl := hm
  · exact .text _ _
  · exact .text _ _
  · exact .bool _ _

end CacheItem

namespace Cache

theorem plain_toJson (c : Cache) : Json.Plain 3 c.toJson := by
  refine .object fun m hm => ?_
  simp only [List.mem_cons, List.not_mem_nil, or_false] at hm
  obtain rfl | rfl | rfl | rfl := hm
  · refine .object fun m hm => ?_
    simp only [List.mem_cons, List.not_mem_nil, or_false] at hm
    obtain rfl | rfl | rfl := hm <;> exact .text _ _
  · refine .object fun m hm => ?_
    obtain ⟨e, -, rfl⟩ := List.mem_map.1 (show m ∈ c.items.entries.map _ from hm)
    exact CacheItem.plain_toJson 0 e.2
  · exact .text _ _
  · exact .text _ _

theorem ofJson?_toJson (c : Cache) (path : String) :
    ofJson? path c.toJson = some { c with path } := by
  rw [ofJson?, toJson, Json.fields?_object rfl]
  have hprogram := CacheProgram.ofJson?_toJson c.program
  have hitems := CacheItem.tableOfJson?_object c.items
  simp [Json.Fields.required, Json.Fields.defaulted, Json.Fields.get?, List.lookup_cons, Json.toText?,
    hprogram, hitems]

/-- **A record that is written is read back.** -/
theorem ofBytes?_render (c : Cache) (path : String) :
    ofBytes? path (Bytes.ofText c.render) = some { c with path } := by
  have hplain : Json.Plain Json.maxDepth c.toJson := c.plain_toJson.mono (by decide)
  rw [ofBytes?, render, Json.ofBytes?_render hplain, Option.bind_some, ofJson?_toJson]

end Cache

end CandyDrop
