import CandyDrop.Cache.Basic
import CandyDrop.FilePath
import CandyDrop.Json.Form
import CandyDrop.Json.Printer
import CandyDrop.Json.Reader
import CandyDrop.Json.Record
import CandyDrop.Script

/-!
# Cache files

The JSON form of the record of a drop and where it is kept: `<folder>/<env>-<name>.json`. A file
is written with the items in ascending order of their keys, and the record in memory takes the same
order once the file could be written.
-/

namespace CandyDrop

namespace CacheProgram

def toJson (p : CacheProgram) : Json :=
  .object
    [("uuid", .text p.uuid), ("candyMachine", .text p.candyMachine),
     ("collectionMint", .text p.collectionMint)]

def ofJson? (j : Json) : Option CacheProgram := do
  let fs ← j.fields? ["uuid", "candyMachine", "collectionMint"] false
  let uuid ← fs.defaulted "uuid" "" Json.toText?
  let candyMachine ← fs.required "candyMachine" Json.toText?
  let collectionMint ← fs.defaulted "collectionMint" "" Json.toText?
  pure ⟨uuid, candyMachine, collectionMint⟩

/-- What a file has to say about a machine. -/
def form : Json.Form := Json.Form.Record.form
  { name := "CacheProgram"
    fills := false
    fields :=
      [⟨"uuid", .defaulted, Json.Form.anyText⟩, ⟨"candyMachine", .required, Json.Form.anyText⟩,
       ⟨"collectionMint", .defaulted, Json.Form.anyText⟩] }

end CacheProgram

namespace CacheItem

def toJson (i : CacheItem) : Json :=
  .object [("name", .text i.name), ("link", .text i.link), ("onChain", .bool i.onChain)]

def ofJson? (j : Json) : Option CacheItem := do
  let fs ← j.fields? ["name", "link", "onChain"] false
  let name ← fs.required "name" Json.toText?
  let link ← fs.required "link" Json.toText?
  let onChain ← fs.required "onChain" Json.toBool?
  pure ⟨name, link, onChain⟩

/-- Items by their keys. A key that stands twice keeps its first place and has the last value. -/
def tableOfJson? : Json → Option (Table CacheItem)
  | .object ms => do
    let items ← ms.mapM fun (k, j) => (ofJson? j).map fun item => (k, item)
    pure (Table.ofList items)
  | _ => none

/-- What a file has to say about an item. -/
def form : Json.Form := Json.Form.Record.form
  { name := "CacheItem"
    fills := false
    fields :=
      [⟨"name", .required, Json.Form.anyText⟩, ⟨"link", .required, Json.Form.anyText⟩,
       ⟨"onChain", .required, Json.Form.flag⟩] }

end CacheItem

namespace Cache

def toJson (c : Cache) : Json :=
  .object
    [("program", c.program.toJson),
     ("items", .object (c.items.map CacheItem.toJson).entries),
     ("env", .text c.env), ("cacheName", .text c.cacheName)]

/-- The record in a JSON value, kept in the file at `path`. -/
def ofJson? (path : String) (j : Json) : Option Cache := do
  let fs ← j.fields? ["program", "items", "env", "cacheName"] false
  let program ← fs.required "program" CacheProgram.ofJson?
  let items ← fs.defaulted "items" Table.empty CacheItem.tableOfJson?
  let env ← fs.defaulted "env" "" Json.toText?
  let cacheName ← fs.defaulted "cacheName" "" Json.toText?
  pure ⟨program, items, env, cacheName, path⟩

/-- The record in the bytes of a file. -/
def ofBytes? (path : String) (bs : Bytes) : Option Cache :=
  (Json.ofBytes? bs).bind (ofJson? path)

/-- What a file has to say to be a record. -/
def form : Json.Form := Json.Form.Record.form
  { name := "Cache"
    fills := false
    fields :=
      [⟨"program", .required, CacheProgram.form⟩,
       ⟨"items", .defaulted, Json.Form.table CacheItem.form⟩,
       ⟨"env", .defaulted, Json.Form.anyText⟩, ⟨"cacheName", .defaulted, Json.Form.anyText⟩] }

/-- The text of a record in the order of its items. -/
def render (c : Cache) : String := c.toJson.render

/-- The record with its items in the order of a file. -/
def ordered (c : Cache) : Cache := { c with items := c.items.sorted }

/-- Where the record of a drop is kept. -/
def filePath (folder env cacheName : String) : String :=
  FilePath.join folder (env ++ "-" ++ cacheName ++ ".json")

/-- Writes the record to a file; the second part is what went wrong. -/
def tryWrite (c : Cache) (path : String) : Script (Cache × Option String) := do
  match ← Script.request (.write path c.ordered.render) with
  | none => return (c.ordered, none)
  | some reason => return (c, some reason)

/-- Writes the record to its own file; the second part is what went wrong. -/
def trySave (c : Cache) : Script (Cache × Option String) := c.tryWrite c.path

/-- Writes the record to its own file. -/
def save (c : Cache) : Script Cache := do
  match ← c.trySave with
  | (c, none) => return c
  | (_, some reason) => .fail (.unwritable reason)

/-- The record that the content of a file is. Without a file it is an empty one, if `create`
allows that. -/
def ofContent (path env cacheName : String) (create : Bool) : Content → Except CacheFault Cache
  | .missing => if create then .ok (fresh path env cacheName) else .error (.notFound path)
  | .closed reason => .error (.unopened path reason)
  | .folder => .error (.malformed Content.folderReason)
  | .bytes bs =>
    match ofBytes? path bs with
    | some c => .ok c
    | none => .error (.malformed (form.reason bs))

/-- Reads the record of a drop. -/
def load (folder env cacheName : String) (create : Bool) : Script Cache := do
  let path := filePath folder env cacheName
  let content ← Script.request (.read path)
  Script.ofExcept .cache (ofContent path env cacheName create content)

end Cache

end CandyDrop
