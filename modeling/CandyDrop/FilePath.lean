/-!
# File paths

Paths are texts with slashes between their parts. Empty parts and single dots do not count, so
that a slash at the end changes nothing. The extension of a name follows its last dot, unless that
is where the name starts.
-/

namespace CandyDrop.FilePath

/-- The parts of a path between its slashes. -/
def split (path : List Char) : List (List Char) :=
  match path with
  | [] => [[]]
  | c :: cs =>
    if c = '/' then [] :: split cs
    else match split cs with
      | [] => [[c]]
      | p :: ps => (c :: p) :: ps

/-- Whether a part between slashes counts. -/
def counts (part : List Char) : Bool := part ≠ [] ∧ part ≠ ['.']

/-- The parts that count. -/
def parts (path : String) : List String :=
  ((split path.toList).filter counts).map String.ofList

/-- What stands between the slashes before the last part that counts. -/
def above (path : List Char) : List (List Char) :=
  ((split path).reverse.dropWhile (!counts ·)).tail.reverse

/-- Whether a path starts at the root. -/
def isAbsolute (path : String) : Bool := path.toList.head? == some '/'

/-- The last part of a path, if that names something. -/
def fileName? (path : String) : Option String :=
  match (parts path).getLast? with
  | some ".." => none
  | name => name

/-- What stands before and after the last dot of a name. -/
def cutExtension (name : List Char) : List Char × Option (List Char) :=
  let after := name.reverse.takeWhile (· != '.')
  let stem := (name.reverse.drop (after.length + 1)).reverse
  if after.length = name.length ∨ stem = [] then (name, none) else (stem, some after.reverse)

/-- The last part of a path without its extension. -/
def stem? (path : String) : Option String :=
  (fileName? path).map fun name => String.ofList (cutExtension name.toList).1

/-- The extension of the last part of a path. -/
def extension? (path : String) : Option String :=
  (fileName? path).bind fun name => (cutExtension name.toList).2.map String.ofList

/-- A path inside a folder; an absolute path stays what it is. -/
def join (folder path : String) : String :=
  if isAbsolute path then path
  else if folder.isEmpty ∨ folder.toList.getLast? = some '/' then folder ++ path
  else folder ++ "/" ++ path

/-- The folder of what a path names. -/
def folderOf (path : String) : String :=
  String.ofList (['/'].intercalate (above path.toList))

end CandyDrop.FilePath
