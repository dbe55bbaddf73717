import CandyDrop.Assets.Basic
import CandyDrop.Checks.Collection
import CandyDrop.Config.Form

/-!
# Manifests

The metadata file of an item, in JSON. Every field may be left out. The limits on what a manifest
says are checked when it is read, so that a manifest that was read can go on the chain.
-/

namespace CandyDrop

/-- A file that belongs to an item. -/
structure Attachment where
  uri : String
  type : String
  deriving DecidableEq

/-- The metadata of an item. -/
structure Manifest where
  name : String
  symbol : String
  description : String
  sellerFeeBasisPoints : UInt16
  image : String
  animationUrl : Option String
  externalUrl : Option String
  files : List Attachment
  category : String
  creators : List Config.Creator
  deriving DecidableEq

namespace Attachment

def toJson (a : Attachment) : Json := .object [("uri", .text a.uri), ("type", .text a.type)]

def ofJson? (j : Json) : Option Attachment := do
  let fs ← j.fields? ["uri", "type"] false
  let uri ← fs.required "uri" Json.toText?
  let type ← fs.required "type" Json.toText?
  pure ⟨uri, type⟩

/-- What a manifest has to say about a file. -/
def form : Json.Form := Json.Form.Record.form
  { name := "FileAttr"
    fills := false
    fields :=
      [⟨"uri", .required, Json.Form.anyText⟩, ⟨"type", .required, Json.Form.anyText⟩] }

end Attachment

namespace Manifest

/-- The part of a manifest that says how the item is shown and by whom it was made. -/
abbrev Properties := List Attachment × String × List Config.Creator

def propertiesOfJson? (j : Json) : Option Properties := do
  let fs ← j.fields? ["files", "category", "creators"] true
  let files ← fs.defaulted "files" [] (Json.toList? Attachment.ofJson?)
  let category ← fs.defaulted "category" "" Json.toText?
  let creators ← fs.defaulted "creators" [] (Json.toList? Config.Creator.ofJson?)
  pure (files, category, creators)

/-- What a manifest may say about its properties. -/
def propertiesForm : Json.Form := Json.Form.Record.form
  { name := "Property"
    fills := true
    fields :=
      [⟨"files", .defaulted, Json.Form.list Attachment.form⟩,
       ⟨"category", .defaulted, Json.Form.anyText⟩,
       ⟨"creators", .defaulted, Json.Form.list Config.Creator.form⟩] }

/-- The names of the fields in order. -/
def fieldNames : List String :=
  ["name", "symbol", "description", "seller_fee_basis_points", "image", "animation_url",
   "external_url", "properties"]

def ofJson? (j : Json) : Option Manifest := do
  let fs ← j.fields? fieldNames true
  let text (name : String) := fs.defaulted name "" Json.toText?
  let name ← text "name"
  let symbol ← text "symbol"
  let description ← text "description"
  let fee ← fs.defaulted "seller_fee_basis_points" 0 Json.toUInt16?
  let image ← text "image"
  let animationUrl ← fs.optional "animation_url" Json.toText?
  let externalUrl ← fs.optional "external_url" Json.toText?
  let (files, category, creators) ← fs.defaulted "properties" ([], "", []) propertiesOfJson?
  pure ⟨name, symbol, description, fee, image, animationUrl, externalUrl, files, category,
    creators⟩

def toJson (m : Manifest) : Json :=
  .object
    [("name", .text m.name), ("symbol", .text m.symbol), ("description", .text m.description),
     ("seller_fee_basis_points", Json.ofNat m.sellerFeeBasisPoints.toNat),
     ("image", .text m.image),
     ("animation_url", Json.ofOption Json.text m.animationUrl),
     ("external_url", Json.ofOption Json.text m.externalUrl),
     ("properties", .object
       [("files", .array (m.files.map Attachment.toJson)), ("category", .text m.category),
        ("creators", .array (m.creators.map Config.Creator.toJson))])]

/-- The manifest in the bytes of a file. -/
def ofBytes? (bs : Bytes) : Option Manifest := (Json.ofBytes? bs).bind ofJson?

/-- The form of the field with a name. -/
def fieldForm (name : String) : Json.Form :=
  if name = "seller_fee_basis_points" then Json.Form.natural 16
  else if name = "properties" then propertiesForm
  else if ["animation_url", "external_url"].contains name then
    Json.Form.optional Json.Form.anyText
  else Json.Form.anyText

/-- What a manifest may say. -/
def form : Json.Form := Json.Form.Record.form
  { name := "Metadata"
    fills := true
    fields := fieldNames.map fun name => ⟨name, .defaulted, fieldForm name⟩ }

/-- The limits on what a manifest says, in the order in which they are checked. -/
def check (m : Manifest) : Except CheckFault Unit := do
  Checks.name m.name
  Checks.symbol m.symbol
  Checks.url m.image
  match m.animationUrl with
  | some url => Checks.url url
  | none => pure ()
  Checks.sellerFee m.sellerFeeBasisPoints

/-- The manifest that the content of a file is. -/
def ofContent (path : String) : Content → Except UploadFault Manifest
  | .missing => .error (.unreadableManifest path Content.missingReason)
  | .closed reason => .error (.unreadableManifest path reason)
  | .folder => .error (.unreadableManifest path Content.folderReason)
  | .bytes bs =>
    match ofBytes? bs with
    | none => .error (.unreadableManifest path (form.reason bs))
    | some m =>
      match m.check with
      | .ok () => .ok m
      | .error fault => .error (.invalidManifest path fault)

/-- Reads and checks manifests one after another. -/
def readEach : List String → Script (List Manifest)
  | [] => pure []
  | p :: ps => do
    let content ← Script.request (.read p)
    let m ← Script.ofExcept .upload (ofContent p content)
    let ms ← readEach ps
    return m :: ms

/-- Reads the manifests of a collection, of which there has to be one. -/
def readAll (paths : List String) : Script (List Manifest) :=
  if paths.isEmpty then .fail (.upload .noManifests) else readEach paths

end Manifest

end CandyDrop
