import CandyDrop.Cache.File
import CandyDrop.Upload.Lines

/-!
# Writing batches

Batches are written in the background, so many at a time. Whenever one is done, its outcome is
recorded and the next one is started, unless the user wants to stop. A batch that fails stops
neither the others nor the loop, and neither does a record that cannot be saved: what is out is
always waited for.
-/

namespace CandyDrop.Schedule

/-- How many batches are out at a time if nothing else is said. -/
def defaultLimit : Nat := 5

/-- How many batches may be out at a time; zero means the default. -/
def effectiveLimit (limit : Nat) : Nat := if limit = 0 then defaultLimit else limit

/-- What has been recorded so far. -/
structure Progress where
  cache : Cache
  /-- The positions written, in the order in which their batches were done. -/
  written : List UInt32
  /-- The faults of batches, in the same order. -/
  faults : List BatchFault
  /-- The first fault in saving the record. -/
  saveFault : Option String

/-- What became of writing batches. -/
structure Outcome where
  written : List UInt32
  faults : List BatchFault
  deriving DecidableEq

/-- Whether every batch was written. -/
def Outcome.success (o : Outcome) : Bool := o.faults.isEmpty

/-- Records what became of a batch. An empty batch is written without a transaction. -/
def record (batch : Batch) (answer : Except ClusterFault Signature) (p : Progress) :
    Script Progress :=
  match batch, answer with
  | _ :: _, .error fault => .done { p with faults := p.faults ++ [.cluster fault] }
  | batch, _ => do
    let indices := batch.map ConfigLine.index
    let (cache, fault) ← (p.cache.markWritten (indices.map UInt32.toNat)).trySave
    return { p with
      cache
      written := p.written ++ indices
      saveFault := p.saveFault.or fault }

/-- Starts a batch. -/
def start (payer machine : Address) (batch : Batch) : Script Unit :=
  Script.request (.launch (Batch.transaction? payer machine batch))

/-- Starts batches in order. -/
def startAll (payer machine : Address) : List Batch → Script Unit
  | [] => .done ()
  | b :: bs => do
    start payer machine b
    startAll payer machine bs

/-- The batches that are still out when the one at `i` is done. -/
def others (b : Batch) (bs : List Batch) (i : Fin (bs.length + 1)) : List Batch :=
  (b :: bs).eraseIdx i

@[simp] theorem length_others (b : Batch) (bs : List Batch) (i : Fin (bs.length + 1)) :
    (others b bs i).length = bs.length :=
  List.length_eraseIdx_of_lt (l := b :: bs) i.isLt

/-- Waits for the batches that are out, and starts those that wait as long as the user does not
want to stop. Gives those that were never started. -/
def drain (payer machine : Address) (out waiting : List Batch) (p : Progress) :
    Script (Progress × List Batch) :=
  match out with
  | [] => .done (p, waiting)
  | b :: bs =>
    .ask (.await bs.length) fun (i, answer) =>
      (record ((b :: bs).get i) answer p).bind fun p =>
        .ask .interrupted fun stop =>
          match (stop : Bool), waiting with
          | false, next :: later =>
            (start payer machine next).bind fun _ =>
              drain payer machine (others b bs i ++ [next]) later p
          | _, later => drain payer machine (others b bs i) later p
termination_by out.length + waiting.length
decreasing_by
  · rw [List.length_append, length_others, List.length_cons, List.length_cons, List.length_cons,
      List.length_nil]
    omega
  · rw [length_others, List.length_cons]
    omega

/-- How writing batches ended. -/
structure Ending where
  cache : Cache
  outcome : Outcome
  /-- Why the record could not be saved: the fault of the last attempt, or else the first one. -/
  saveFault : Option String

/-- Writes batches, at most `limit` at a time, and records what is written. -/
def runAll (payer machine : Address) (limit : Nat) (cache : Cache) (batches : List Batch) :
    Script Ending := do
  let limit := effectiveLimit limit
  Script.say ("Sending config line(s) in " ++ batches.length.repr
    ++ " transaction(s): (Ctrl+C to abort)")
  startAll payer machine (batches.take limit)
  let (p, left) ← drain payer machine (batches.take limit) (batches.drop limit)
    ⟨cache, [], [], none⟩
  let faults := if left.isEmpty then p.faults else p.faults ++ [.aborted]
  let (cache, fault) ← p.cache.trySave
  return ⟨cache, ⟨p.written, faults⟩, fault.or p.saveFault⟩

/-- The same; a record that could not be saved is a failure. -/
def run (payer machine : Address) (limit : Nat) (cache : Cache) (batches : List Batch) :
    Script (Cache × Outcome) := do
  let ending ← runAll payer machine limit cache batches
  match ending.saveFault with
  | some reason => .fail (.unwritable reason)
  | none => return (ending.cache, ending.outcome)

end CandyDrop.Schedule
