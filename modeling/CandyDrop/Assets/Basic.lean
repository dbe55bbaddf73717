import CandyDrop.FilePath
import CandyDrop.Script
import CandyDrop.Text.Integer
import CandyDrop.Text.Quoted

/-!
# Files of a collection

The folder of a collection holds an image for each item, perhaps an animation, and a manifest with
its metadata. The kind of a file follows from the extension of its name. Manifests are named by
numbers without gaps, and `Assets.ofFolder` puts them in the order of these numbers.
-/

namespace CandyDrop

/-- What a file of a collection is. -/
inductive AssetKind where
  | image
  | animation
  | manifest
  deriving DecidableEq

namespace AssetKind

def imageExtensions : List String := ["png", "gif", "jpg", "jpeg"]

def animationExtensions : List String := ["mp4", "mov", "mp3", "flac", "wav", "glb", "html"]

def manifestExtension : String := "json"

/-- The kind of a file, by the extension of its path in any case. Only ASCII letters have a case
that matters, because no other letter is a capital of one in the known extensions. -/
def ofPath? (path : String) : Option AssetKind := do
  let extension := String.ofList ((← FilePath.extension? path).toList.map Char.toLower)
  if imageExtensions.contains extension then some image
  else if animationExtensions.contains extension then some animation
  else if extension = manifestExtension then some manifest
  else none

end AssetKind

/-- The files of a collection by their paths. -/
structure Assets where
  images : List String
  animations : List String
  /-- In the order of their numbers. -/
  manifests : List String
  deriving DecidableEq

namespace Assets

/-- The number that a file is named by. -/
def index (path : String) : Except UploadFault UInt64 :=
  match (FilePath.stem? path).bind Text.uint64? with
  | some n => .ok n
  | none => .error (.invalidFileName ((FilePath.fileName? path).getD ""))

/-- Paths with their numbers. -/
def indexed : List String → Except UploadFault (List (UInt64 × String))
  | [] => .ok []
  | p :: ps => do
    let n ← index p
    let rest ← indexed ps
    return (n, p) :: rest

/-- Whether the number of one file is not above that of another. -/
def indexLE (a b : UInt64 × String) : Bool := decide (a.1 ≤ b.1)

/-- The first file whose number is not the expected one, which grows by one from file to file. -/
def gap? : (expected : UInt64) → List (UInt64 × String) → Option UploadFault
  | _, [] => none
  | expected, (n, p) :: rest =>
    if n = expected then gap? (expected + 1) rest else some (.gap expected p)

/-- The paths of manifests in the order of their numbers, which must have no gap. -/
def inOrder (paths : List String) : Except UploadFault (List String) := do
  let sorted := (← indexed paths).mergeSort indexLE
  match sorted with
  | [] => return []
  | (first, _) :: _ =>
    match gap? first sorted with
    | some fault => throw fault
    | none => return sorted.map Prod.snd

/-- Whether an entry of the folder counts: a regular file that is not hidden. -/
def counts (entry : FolderEntry) : Bool := entry.isFile && entry.name.toList.head? != some '.'

/-- The paths of the files of a folder that count. -/
def paths (folder : String) (entries : List FolderEntry) : List String :=
  (entries.filter counts).map fun e => FilePath.join folder e.name

/-- The files of one kind. -/
def ofKind (kind : AssetKind) (paths : List String) : List String :=
  paths.filter fun p => AssetKind.ofPath? p == some kind

/-- The files of a collection among the entries of its folder. -/
def ofEntries (folder : String) (entries : List FolderEntry) : Except UploadFault Assets := do
  let ps := paths folder entries
  let manifests ← inOrder (ofKind .manifest ps)
  return ⟨ofKind .image ps, ofKind .animation ps, manifests⟩

/-- The warnings about files of no known kind. -/
def warnings (folder : String) (entries : List FolderEntry) : List String :=
  ((paths folder entries).filter fun p => AssetKind.ofPath? p == none).map fun p =>
    "Skipping unsupported file type " ++ Text.quoted p

/-- Notes warnings one after another. -/
def warnAll : List String → Script Unit
  | [] => pure ()
  | w :: ws => do
    Script.warn w
    warnAll ws

/-- Reads the files of a collection in a folder. -/
def ofFolder (folder : String) : Script Assets := do
  match ← Script.request (.list folder) with
  | none => .fail (.upload (.invalidDirectory folder))
  | some entries =>
    warnAll (warnings folder entries)
    Script.ofExcept .upload (ofEntries folder entries)

/-- Checks the numbers of files against each other and against the number of items, and gives the
latter; without one it is the number of images. -/
def checkCounts (assets : Assets) (storage : Storage) (number : Option UInt64) :
    Except UploadFault UInt64 :=
  let images := assets.images.length
  let animations := assets.animations.length
  let manifests := assets.manifests.length
  if animations ≠ 0 ∧ storage = .arweave then .error .animationsNotSupported
  else if animations ≠ 0 ∧ animations ≠ manifests then
    .error (.animationCount animations manifests)
  else if images ≠ manifests then .error (.imageCount images manifests)
  else
    let n := number.getD (UInt64.ofNat images)
    if n < UInt64.ofNat images then .error (.numberTooSmall n images) else .ok n

end Assets

end CandyDrop
