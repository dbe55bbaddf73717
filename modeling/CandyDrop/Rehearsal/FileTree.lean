import CandyDrop.FilePath
import CandyDrop.Script

/-!
# A tree of files

A value that stands for the files of a machine, so that commands can be rehearsed without any. A
place is the list of names that lead to it from the root. A path is followed name by name; every
name before the last one has to be that of a folder, also before a name of the folder above.
-/

namespace CandyDrop

/-- What stands at a place. -/
inductive FileNode where
  | folder
  | file (content : Bytes)
  deriving DecidableEq

/-- Folders and files by their places, in the order in which they were made. The root is always
there and not listed. -/
structure FileTree where
  nodes : List (List String × FileNode)

namespace FileTree

/-- The names that lead to a place from the root. -/
abbrev Place := List String

/-- The tree without files. -/
def empty : FileTree := ⟨[]⟩

/-- What stands at a place. -/
def node? (t : FileTree) (p : Place) : Option FileNode :=
  if p = [] then some .folder else t.nodes.lookup p

/-- Whether a place is that of a folder. -/
def isFolder (t : FileTree) (p : Place) : Bool := t.node? p == some .folder

/-- Puts something at a place. -/
def put (t : FileTree) (p : Place) (n : FileNode) : FileTree :=
  if (t.nodes.lookup p).isSome then
    ⟨t.nodes.map fun e => if e.1 = p then (p, n) else e⟩
  else ⟨t.nodes ++ [(p, n)]⟩

/-- Takes away what stands at a place and below. -/
def remove (t : FileTree) (p : Place) : FileTree := ⟨t.nodes.filter fun e => !p.isPrefixOf e.1⟩

/-- The most bytes of a name. -/
def maxNameLength : Nat := 255

/-- The most bytes of a path. -/
def maxPathLength : Nat := 4095

/-- The place that names lead to from a place. -/
def follow (t : FileTree) (p : Place) : List String → Option Place
  | [] => some p
  | name :: names =>
    if !t.isFolder p then none
    else if name = "" ∨ name = "." then t.follow p names
    else if name = ".." then t.follow p.dropLast names
    else if maxNameLength < Bytes.sizeOfText name then none
    else t.follow (p ++ [name]) names

/-- The names between the slashes of a path, if it can be one. -/
def names? (path : String) : Option (List String) :=
  if path = "" ∨ path.toList.contains '\x00' ∨ maxPathLength < Bytes.sizeOfText path then none
  else some ((FilePath.split path.toList).map String.ofList)

/-- The place of a path as seen from the folder `cwd`. Something may or may not be there. -/
def place? (t : FileTree) (cwd : Place) (path : String) : Option Place := do
  let names ← names? path
  t.follow (if FilePath.isAbsolute path then [] else cwd) names

/-- What a path leads to. -/
def find? (t : FileTree) (cwd : Place) (path : String) : Option FileNode :=
  (t.place? cwd path).bind t.node?

/-- What a file holds. -/
def read (t : FileTree) (cwd : Place) (path : String) : Content :=
  match t.find? cwd path with
  | none => .missing
  | some .folder => .folder
  | some (.file bs) => .bytes bs

/-- The names in a folder and what has them. -/
def children (t : FileTree) (p : Place) : List (String × FileNode) :=
  t.nodes.filterMap fun (q, n) =>
    match q.getLast? with
    | some name => if q.dropLast = p then some (name, n) else none
    | none => none

/-- The content of a folder. -/
def list (t : FileTree) (cwd : Place) (path : String) : Option (List FolderEntry) :=
  match t.place? cwd path with
  | none => none
  | some p =>
    if t.isFolder p then
      some ((t.children p).map fun (name, n) => ⟨name, n != .folder⟩)
    else none

/-- Makes the folders that names lead through from a place. What was made stays if a later one
cannot be. -/
def makeFolders (t : FileTree) (p : Place) : List String → FileTree × Bool
  | [] => (t, t.isFolder p)
  | name :: names =>
    if !t.isFolder p then (t, false)
    else if name = "" ∨ name = "." then t.makeFolders p names
    else if name = ".." then t.makeFolders p.dropLast names
    else if maxNameLength < Bytes.sizeOfText name then (t, false)
    else
      let q := p ++ [name]
      match t.node? q with
      | none => (t.put q .folder).makeFolders q names
      | some .folder => t.makeFolders q names
      | some (.file _) => (t, false)

/-- Writes a file into a folder that is there. -/
def create (t : FileTree) (cwd : Place) (path : String) (bs : Bytes) : FileTree × Option String :=
  match t.place? cwd path with
  | none => (t, some Content.missingReason)
  | some p =>
    if t.isFolder p then (t, some Content.folderReason)
    else if p.getLast? = none then (t, some Content.folderReason)
    else (t.put p (.file bs), none)

/-- Writes a file, and makes the folders above it that are missing. A path that ends in a slash
names no file, but the folders above are made first. -/
def write (t : FileTree) (cwd : Place) (path : String) (bs : Bytes) : FileTree × Option String :=
  match names? path with
  | none => (t, some Content.missingReason)
  | some _ =>
    let start := if FilePath.isAbsolute path then [] else cwd
    let folders := (FilePath.above path.toList).map String.ofList
    let (t, made) := t.makeFolders start folders
    if made then t.create cwd path bs else (t, some "Not a directory (os error 20)")

/-- Writes at the end of a file, which is made if it is missing. -/
def append (t : FileTree) (cwd : Place) (path : String) (bs : Bytes) : FileTree × Option String :=
  match t.find? cwd path with
  | some (.file old) => t.create cwd path (old ++ bs)
  | _ => t.create cwd path bs

end FileTree

end CandyDrop
