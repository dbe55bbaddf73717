import CandyDrop.Deploy.Command
import CandyDrop.Proofs.Cluster.World

/-!
# Scripts that only look

Before a command changes anything it reads accounts and files. `Script.Quiet` says that a script
does no more than that, and that it does not fail for the sake of a line of a machine. The checks
of tokens and of the treasury and the loading of a record are quiet, and saving one asks for no more
than to write it (`Cache.only_save`).
-/

namespace CandyDrop

/-- Whether a failure is about what a line should hold. -/
def Failure.IsAboutLines : Failure → Prop
  | .deploy (.missingItem _) | .deploy (.missingName _) | .deploy (.missingLink _) => True
  | _ => False

namespace Script

variable {α β : Type}

/-- A script that changes nothing and does not fail for the sake of a line. -/
abbrev Quiet (s : Script α) : Prop := s.Only Request.IsQuiet fun e => ¬e.IsAboutLines

theorem quiet_account (a : Address) : (account a).Quiet :=
  ⟨trivial, fun _ => only_ofExcept fun _ _ => id⟩

theorem quiet_rent (size : UInt64) : (rent size).Quiet :=
  ⟨trivial, fun _ => only_ofExcept fun _ _ => id⟩

theorem quiet_balance (a : Address) : (balance a).Quiet :=
  ⟨trivial, fun _ => only_ofExcept fun _ _ => id⟩

end Script

open Script

/-! ## Checks of accounts -/

theorem Mint.quiet_check (a : Address) : (check a).Quiet :=
  (quiet_account a).bind fun _ => only_ofExcept fun _ _ => id

theorem TokenAccount.quiet_check (a : Address) : (check a).Quiet :=
  (quiet_account a).bind fun _ => only_ofExcept fun _ _ => id

theorem TokenMetadata.quiet_get (mint : Address) : (get mint).Quiet :=
  (quiet_account _).bind fun _ =>
    (only_ofExcept fun _ _ => id).bind fun _ => only_done _

theorem MasterEdition.quiet_check (mint : Address) : (check mint).Quiet :=
  (quiet_account _).bind fun _ =>
    (only_ofExcept fun _ _ => id).bind fun _ => only_done _

theorem CollectionMint.quiet_check (payer mint : Address) : (check payer mint).Quiet := by
  refine ((Mint.quiet_check mint).mapFailure fun _ _ => id).bind fun _ => ?_
  refine (TokenMetadata.quiet_get mint).bind fun (_, metadata) => ?_
  dsimp only
  split
  · exact (MasterEdition.quiet_check mint).bind fun _ => only_done _
  · exact id

theorem Deploy.quiet_checkCollection (payer : Address) (mint : Option Address) :
    (checkCollection payer mint).Quiet := by
  cases mint with
  | none => trivial
  | some mint => exact CollectionMint.quiet_check payer mint

theorem Treasury.quiet_resolve (config : Config) (payer : Address) :
    (resolve config payer).Quiet := by
  unfold resolve
  split
  · split
    · exact id
    · refine (Mint.quiet_check _).bind fun _ => ?_
      refine (TokenAccount.quiet_check _).bind fun _ => ?_
      split
      · trivial
      · exact id
  · exact id
  · trivial

theorem Settings.quiet_resolve (config : Config) (payer : Address) (now : Int) :
    (resolve config payer now).Quiet :=
  (only_ofExcept fun _ _ => id).bind fun _ =>
    (Treasury.quiet_resolve config payer).bind fun _ => only_ofExcept fun _ _ => id

theorem Cache.quiet_load (folder env name : String) (create : Bool) :
    (load folder env name create).Quiet :=
  (only_request trivial).bind fun _ => only_ofExcept fun _ _ => id

/-! ## Saving a record -/

namespace Cache

variable {P : Request → Prop} {Q : Failure → Prop} {c : Cache}

/-- To save a record asks for nothing but to write it. -/
theorem only_trySave (h : P (.write c.path c.ordered.render)) : c.trySave.Only P Q := by
  refine (only_request h).bind fun fault => ?_
  cases fault <;> exact only_done _

theorem only_save (h : P (.write c.path c.ordered.render)) : c.save.Only P fun _ => True := by
  refine (only_trySave h).bind fun x => ?_
  obtain ⟨c', fault⟩ := x
  cases fault <;> trivial

end Cache

end CandyDrop
