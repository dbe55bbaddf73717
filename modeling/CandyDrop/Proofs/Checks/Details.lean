import CandyDrop.Checks.Collection
import CandyDrop.Proofs.Script.Runs
import Mathlib.Data.List.Forall2

/-!
# What checked details say

Details that pass their check are those that were given: the symbol and the fee as they are, and each
creator in its place with the address that its text stands for and with its share, not verified yet
(`CollectionDetails.given_of_check`).
-/

namespace CandyDrop

/-- A creator of a machine stands for one of a configuration. -/
structure Machine.Creator.StandsFor (given : Config.Creator) (c : Machine.Creator) : Prop where
  address : ∃ text, given.address = some text ∧ Address.ofText? text = some c.address
  share : c.share = given.share
  verified : c.verified = false

namespace Checks

theorem address_eq_ok_iff {c : Config.Creator} {a : Address} :
    address c = .ok a ↔ ∃ text, c.address = some text ∧ Address.ofText? text = some a := by
  unfold address
  split
  · next hnone => simp [hnone]
  · next text hsome =>
    split
    · next b hb => simp [hsome, hb]
    · next hb => simp [hsome, hb]

/-- Addresses and shares come together in the order of the creators. -/
theorem forall₂_of_addresses {cs : List Config.Creator} {as : List Address}
    (h : addresses cs = .ok as) :
    List.Forall₂ Machine.Creator.StandsFor cs
      ((as.zip cs).map fun (a, c) => ⟨a, false, c.share⟩) := by
  induction cs generalizing as with
  | nil =>
    cases h
    exact .nil
  | cons c cs ih =>
    simp only [addresses, except_bind_eq_ok_iff] at h
    obtain ⟨a, ha, rest, hrest, h⟩ := h
    cases h
    exact .cons ⟨address_eq_ok_iff.1 ha, rfl, rfl⟩ (ih hrest)

theorem creators_eq_ok_iff {cs : List Config.Creator} {creators : List Machine.Creator} :
    Checks.creators cs = .ok creators ↔ cs ≠ [] ∧ cs.length ≤ maxCreators ∧
      ∃ as, addresses cs = .ok as ∧ shares cs = .ok () ∧
        creators = (as.zip cs).map fun (a, c) => ⟨a, false, c.share⟩ := by
  unfold Checks.creators
  by_cases hempty : cs = []
  · subst hempty
    exact iff_of_false (fun h => by cases h) fun h => h.1 rfl
  by_cases hmax : maxCreators < cs.length
  · rw [if_neg (by simpa using hempty), if_pos hmax]
    exact iff_of_false (fun h => by cases h) fun h => Nat.not_le.2 hmax h.2.1
  rw [if_neg (by simpa using hempty), if_neg hmax]
  simp only [except_bind_eq_ok_iff]
  constructor
  · rintro ⟨as, has, _, hshares, h⟩
    cases h
    exact ⟨hempty, Nat.not_lt.1 hmax, as, has, hshares, rfl⟩
  · rintro ⟨-, -, as, has, hshares, rfl⟩
    exact ⟨as, has, (), hshares, rfl⟩

theorem forall₂_of_creators {cs : List Config.Creator} {creators : List Machine.Creator}
    (h : Checks.creators cs = .ok creators) :
    List.Forall₂ Machine.Creator.StandsFor cs creators := by
  obtain ⟨-, -, as, has, -, rfl⟩ := creators_eq_ok_iff.1 h
  exact forall₂_of_addresses has

theorem length_creators {cs : List Config.Creator} {creators : List Machine.Creator}
    (h : Checks.creators cs = .ok creators) : creators.length ≤ maxCreators := by
  rw [← (forall₂_of_creators h).length_eq]
  exact (creators_eq_ok_iff.1 h).2.1

end Checks

namespace CollectionDetails

variable {symbol : String} {fee : UInt16} {cs : List Config.Creator} {details : CollectionDetails}

/-- Checked details are the ones that were given. -/
theorem given_of_check (h : check symbol fee cs = .ok details) :
    details.symbol = symbol ∧ details.sellerFeeBasisPoints = fee ∧
      List.Forall₂ Machine.Creator.StandsFor cs details.creators := by
  simp only [check, except_bind_eq_ok_iff] at h
  obtain ⟨_, -, _, -, creators, hcreators, h⟩ := h
  cases h
  exact ⟨rfl, rfl, Checks.forall₂_of_creators hcreators⟩

end CollectionDetails

end CandyDrop
