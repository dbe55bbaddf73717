import CandyDrop.Proofs.Cluster.World
import CandyDrop.Rehearsal.Ledger
import CandyDrop.Upload.Command

/-!
# A rehearsal is a run

What a script does on a ledger is one of its runs: `Ledger.transcript` notes the requests and the
answers, and the script runs along them and ends as on the ledger (`runs_transcript`,
`transcript_outcome`). Whether a transcript follows from a world can be decided, so that statements
about runs can be tried on rehearsals, such as those of a small drop (`Sample`).
-/

namespace CandyDrop

namespace Ledger

variable {α : Type}

/-- The requests of a script on a ledger with their answers, and how it ends. -/
def transcript : Script α → Ledger → List Event × Except Failure α × Ledger
  | .done x, l => ([], .ok x, l)
  | .fail e, l => ([], .error e, l)
  | .ask r next, l =>
    let (answer, l) := handle r l
    let (es, ending) := transcript (next answer) l
    (⟨r, answer⟩ :: es, ending)

theorem transcript_outcome (s : Script α) (l : Ledger) : (transcript s l).2 = l.run s := by
  unfold run
  induction s generalizing l with
  | done x => rfl
  | fail e => rfl
  | ask r next ih => exact ih (handle r l).1 (handle r l).2

/-- **A script runs along its transcript** on a ledger. -/
theorem runs_transcript (s : Script α) (l : Ledger) :
    s.Runs (transcript s l).1 (l.run s).1 := by
  rw [← transcript_outcome]
  induction s generalizing l with
  | done x => exact .done x
  | fail e => exact .fail e
  | ask r next ih => exact .ask (ih (handle r l).1 (handle r l).2)

end Ledger

namespace World

/-- Where a transcript leads from a world. -/
def after (path : String) (w : World) (es : List Event) : World := es.foldl (step path) w

/-- Whether the events of a transcript can happen one after another. -/
def permitsAll (path : String) (w : World) : List Event → Bool
  | [] => true
  | e :: es => w.permits path e && permitsAll path (w.step path e) es

theorem follows_after {path : String} {w : World} {es : List Event}
    (h : permitsAll path w es = true) : w.Follows path es (w.after path es) := by
  induction es generalizing w with
  | nil => rfl
  | cons e es ih =>
    rw [permitsAll, Bool.and_eq_true] at h
    exact ⟨h.1, ih h.2⟩

end World

/-! ## A small drop -/

namespace Sample

def payer : Address := Ledger.newKey 0

def place : CachePlace := ⟨".cache", "devnet", "temp"⟩

def choice : CollectionChoice := ⟨none, true⟩

def options : Upload.Options := ⟨"assets", place, choice, 0⟩

/-- A configuration for deployments and for uploads. -/
def config : Config :=
  { Config.blank with
    price := Binary64.ofNat 1
    number := some 1
    symbol := "S"
    creators := [⟨some "11111111111111111111111111111111", 100⟩]
    storage := some "nft-storage"
    nftStorageKey := some "k"
    baseUri := some "https://x" }

/-- A manifest with nothing but a name and what every collection needs. -/
def manifest (name : String) : Bytes :=
  let creator := Json.object
    [("address", .text "11111111111111111111111111111111"), ("share", .number (.integer 100))]
  Bytes.ofText (Json.object
    [("name", .text name), ("symbol", .text "S"),
     ("properties", .object [("creators", .array [creator])])]).render

/-- A ledger with the folder of a collection of one item. -/
def ledger (name : String) : Ledger :=
  { Ledger.blank with
    files :=
      ⟨[(["assets"], .folder), (["assets", "0.png"], .file []),
        (["assets", "0.json"], .file (manifest name))]⟩ }

/-- An upload of the collection. -/
def upload : Script Address := Upload.run payer 0 config options

/-- A deployment without a collection. -/
def deploy : Script Address := Deploy.run payer 0 config place choice

end Sample

end CandyDrop
