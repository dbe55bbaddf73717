import CandyDrop.Proofs.Machine.Layout
import CandyDrop.Token.Instructions
import Mathlib.Logic.Function.Basic

/-!
# Delegates of token accounts

The owner of a token account can let one other key take tokens out of it, up to an amount. An
account has one delegate at a time: to approve a key replaces the one before, and to revoke leaves
none (`Delegations.carryOut`).
-/

namespace CandyDrop

/-- Who may take tokens out of an account besides its owner, and how many. -/
structure Delegation where
  delegate : Address
  amount : UInt64
  deriving DecidableEq

/-! ## Reading instructions -/

namespace Instruction

/-- The arguments of the call of the token program with this number. -/
def tokenArguments? (number : UInt8) (i : Instruction) : Option Bytes :=
  if i.program = Address.tokenProgram ∧ i.data.head? = some number then some i.data.tail else none

/-- The account that an instruction approves a delegation of, and the delegation. -/
def approval? (i : Instruction) : Option (Address × Delegation) := do
  let arguments ← i.tokenArguments? 4
  let (amount, _) ← Borsh.Decoder.u64 arguments
  let account ← i.accounts[0]?
  let delegate ← i.accounts[1]?
  return (account.address, ⟨delegate.address, amount⟩)

/-- The account whose delegation an instruction takes back. -/
def revocation? (i : Instruction) : Option Address := do
  let _ ← i.tokenArguments? 5
  let account ← i.accounts[0]?
  return account.address

theorem approval?_approve (account delegate owner : Address) (amount : UInt64) :
    (approve account delegate owner amount).approval? = some (account, ⟨delegate, amount⟩) := by
  have hamount := Borsh.Decoder.takes_u64 amount []
  rw [List.append_nil] at hamount
  have harguments : (approve account delegate owner amount).tokenArguments? 4 =
      some (Borsh.u64 amount) := if_pos ⟨rfl, rfl⟩
  rw [approval?, harguments]
  simp only [Option.bind_eq_bind, Option.bind_some, hamount]
  rfl

/-- The instruction neither approves nor revokes. -/
def KeepsDelegations (i : Instruction) : Prop := i.approval? = none ∧ i.revocation? = none

theorem keepsDelegations_of_program {i : Instruction} (h : i.program ≠ Address.tokenProgram) :
    i.KeepsDelegations := by
  have hnone : ∀ number, i.tokenArguments? number = none := fun number => if_neg fun hi => h hi.1
  rw [KeepsDelegations, approval?, revocation?, hnone, hnone]
  exact ⟨rfl, rfl⟩

theorem keepsDelegations_of_head? {i : Instruction} (h : ∀ n ∈ i.data.head?, n ≠ 4 ∧ n ≠ 5) :
    i.KeepsDelegations := by
  have happroves : i.tokenArguments? 4 = none := if_neg fun hi => (h 4 hi.2).1 rfl
  have hrevokes : i.tokenArguments? 5 = none := if_neg fun hi => (h 5 hi.2).2 rfl
  rw [KeepsDelegations, approval?, revocation?, happroves, hrevokes]
  exact ⟨rfl, rfl⟩

end Instruction

/-! ## Carrying out instructions -/

/-- The delegation of every token account that has one. -/
abbrev Delegations := Address → Option Delegation

namespace Delegations

variable {d : Delegations} {is : List Instruction} {i : Instruction} {a account : Address}
  {x : Delegation}

/-- What an instruction leaves of the delegations. -/
def carryOut (d : Delegations) (i : Instruction) : Delegations :=
  match i.approval?, i.revocation? with
  | some (account, x), _ => Function.update d account (some x)
  | none, some account => Function.update d account none
  | none, none => d

/-- What instructions leave of the delegations. -/
def after (d : Delegations) (is : List Instruction) : Delegations := is.foldl carryOut d

theorem after_append (d : Delegations) (is js : List Instruction) :
    d.after (is ++ js) = (d.after is).after js := List.foldl_append

theorem carryOut_of_approval? (h : i.approval? = some (account, x)) :
    d.carryOut i = Function.update d account (some x) := by
  rw [carryOut, h]

theorem carryOut_of_keeps (h : i.KeepsDelegations) : d.carryOut i = d := by
  rw [carryOut, h.1, h.2]

theorem after_of_forall_keeps (h : ∀ i ∈ is, i.KeepsDelegations) : d.after is = d := by
  induction is generalizing d with
  | nil => rfl
  | cons i is ih =>
    rw [List.forall_mem_cons] at h
    rw [after, List.foldl_cons, carryOut_of_keeps h.1]
    exact ih h.2

/-- An approval replaces the delegation of its account, and leaves the others. -/
theorem after_approve (d : Delegations) (account delegate owner : Address) (amount : UInt64) :
    d.after [Instruction.approve account delegate owner amount] =
      Function.update d account (some ⟨delegate, amount⟩) :=
  carryOut_of_approval? (Instruction.approval?_approve ..)

end Delegations

end CandyDrop
