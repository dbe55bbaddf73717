import CandyDrop.Program
import Std.Time.DateTime.Timestamp

/-!
# The executable

Carries out the requests of the program: files, the screen and the clock are those of the machine.
There is no connection to a cluster, so that calls of one are answered as unreachable; only its
address is kept.
-/

namespace CandyDrop.Console

/-- What a file holds. -/
def read (path : String) : IO Content := do
  try
    let here ← IO.currentDir
    let file := here / path
    if ← file.isDir then return .folder
    if !(← file.pathExists) then return .missing
    return .bytes (← IO.FS.readBinFile file).data.toList
  catch e => return .closed (toString e)

/-- The content of a folder. -/
def list (path : String) : IO (Option (List FolderEntry)) := do
  try
    let here ← IO.currentDir
    let entries ← (here / path).readDir
    let entries ← entries.toList.mapM fun e => do
      return FolderEntry.mk e.fileName !(← e.path.isDir)
    return some entries
  catch _ => return none

/-- Writes a file; the answer is what went wrong. -/
def write (path text : String) : IO (Option String) := do
  try
    let folder := FilePath.folderOf path
    if folder ≠ "" then IO.FS.createDirAll folder
    IO.FS.writeFile path text
    return none
  catch e => return some (toString e)

/-- Writes at the end of a file; the answer is what went wrong. -/
def append (path text : String) : IO (Option String) := do
  try
    let file ← IO.FS.Handle.mk path .append
    file.putStr text
    return none
  catch e => return some (toString e)

/-- An address that nobody has. -/
def freshKey : IO Address := do
  let seed ← IO.getRandomBytes 32
  return ⟨Digest.hash seed.data.toList, Digest.length_hash _⟩

/-- Why a cluster does not answer. -/
def outage (url : IO.Ref String) : IO Outage := do return ⟨← url.get, "there is no network"⟩

/-- Carries out a request; `url` is where the cluster is. -/
def handle (url : IO.Ref String) : (r : Request) → IO r.Answer
  | .connect address => url.set address
  | .account _ => do return .error (.unversioned (← outage url))
  | .balance _ => do return .error (.unversioned (← outage url))
  | .rent _ => do return .error (.unreachable (← outage url))
  | .submit _ => do return .error (.unversioned (← outage url))
  | .launch _ => return ()
  | .await others => do return (⟨0, others.succ_pos⟩, .error (.unversioned (← outage url)))
  | .freshKey => freshKey
  | .interrupted => return false
  | .read path => read path
  | .list path => list path
  | .write path text => write path text
  | .append path text => append path text
  | .say line => IO.println line
  | .complain line => IO.eprintln line
  | .warn _ => return ()

/-- Carries out a script. -/
def carryOut {α : Type} (url : IO.Ref String) : Script α → IO (Except Failure α)
  | .done x => return .ok x
  | .fail e => return .error e
  | .ask r next => do carryOut url (next (← handle url r))

end CandyDrop.Console

open CandyDrop in
/-- Runs the program. -/
def main (words : List String) : IO UInt32 := do
  let home := (← IO.getEnv "HOME").getD ""
  let now ← Std.Time.Timestamp.now
  let here : Surroundings := ⟨home, Program.cacheFolder, now.toSecondsSinceUnixEpoch.val⟩
  let url ← IO.mkRef ""
  match ← Console.carryOut url (Program.run here words) with
  | .ok status => return UInt32.ofNat status
  | .error failure =>
    IO.eprintln failure.message
    return 1
