import CandyDrop.Deploy.Create
import Mathlib.Algebra.GroupWithZero.Nat

/-!
# The arithmetic of account sizes

The size of an account is computed in words of 64 bits, by sums and products of which some are checked
and some are not. What so many items need, computed without a bound, is `MachineData.sizeFor`. Where a
word holds it, that is the size of the account, and where no word does, there is none
(`MachineData.space?_eq_some_iff`): the steps that are not checked never wrap around, and the checks
refuse nothing that would fit in the end. So a number of items that is refused stays refused when items
are added, and the machine with it (`MachineData.space_exact`).
-/

namespace CandyDrop

namespace MachineData

variable {a b c space space' : UInt64} {d d' : MachineData} {m n : Nat}

/-! ## Checked operations -/

/-- A word that is a number modulo the size of words, and is kept only if the number is below it. -/
theorem kept_eq_some_iff (h : a.toNat = n % UInt64.size) :
    (if n < UInt64.size then some a else none) = some c ↔ c.toNat = n := by
  split
  · next hlt => rw [Option.some.injEq, ← UInt64.toNat_inj, h, Nat.mod_eq_of_lt hlt, eq_comm]
  · next hlt => exact iff_of_false nofun fun hc => hlt (hc ▸ c.toNat_lt)

theorem add?_eq_some_iff : add? a b = some c ↔ c.toNat = a.toNat + b.toNat :=
  kept_eq_some_iff (UInt64.toNat_add a b)

theorem mul?_eq_some_iff : mul? a b = some c ↔ c.toNat = a.toNat * b.toNat :=
  kept_eq_some_iff (UInt64.toNat_mul a b)

theorem exists_toNat_eq (h : n < 2 ^ 64) : ∃ word : UInt64, word.toNat = n :=
  ⟨UInt64.ofNat n, UInt64.toNat_ofNat_of_lt h⟩

/-! ## The size that items need -/

/-- The size of an account with so many items, without a bound: the fixed part, a line for each item
after the number of lines, and two bits for each item, kept in two fields of whole bytes. -/
def sizeFor (items : Nat) : Nat :=
  fixedSize.toNat + 4 + 240 * items + 8 + 2 * (items / 8 + 1)

theorem sizeFor_lt_sizeFor (h : m < n) : sizeFor m < sizeFor n := by
  have hbits : m / 8 ≤ n / 8 := Nat.div_le_div_right (Nat.le_of_lt h)
  unfold sizeFor
  omega

theorem sizeFor_le_sizeFor (h : m ≤ n) : sizeFor m ≤ sizeFor n := by
  rcases Nat.eq_or_lt_of_le h with rfl | hlt
  · exact Nat.le_refl _
  · exact Nat.le_of_lt (sizeFor_lt_sizeFor hlt)

/-- **The size of an account** without hidden settings is the word for the size that its items need,
if there is one. -/
theorem space?_eq_some_iff (h : d.hiddenSettings = none) :
    d.space? = some space ↔ space.toNat = sizeFor d.itemsAvailable.toNat := by
  have hline : lineSize.toNat = 240 := rfl
  have hroom : (fixedSize + 4 + 8).toNat = fixedSize.toNat + 12 := rfl
  -- the one step on the items that is not checked: an eighth and one is far from the end of a word
  have heighth : (d.itemsAvailable / 8 + 1).toNat = d.itemsAvailable.toNat / 8 + 1 := by
    have hitems := d.itemsAvailable.toNat_lt
    have height : (d.itemsAvailable / 8).toNat = d.itemsAvailable.toNat / 8 := UInt64.toNat_div ..
    rw [UInt64.toNat_add, height, UInt64.toNat_one]
    exact Nat.mod_eq_of_lt (by omega)
  simp only [space?, h, Option.isSome_none, Bool.false_eq_true, if_false, Option.bind_eq_bind,
    Option.bind_eq_some_iff, add?_eq_some_iff, mul?_eq_some_iff, hline, hroom, heighth, sizeFor]
  constructor
  · rintro ⟨lines, hlines, room, hroom, bits, hbits, hspace⟩
    have htwo : bits.toNat = (d.itemsAvailable.toNat / 8 + 1) * 2 := hbits
    omega
  · intro hspace
    have hlt := space.toNat_lt
    obtain ⟨lines, hlines⟩ := exists_toNat_eq (n := d.itemsAvailable.toNat * 240) (by omega)
    obtain ⟨room, hroom⟩ := exists_toNat_eq (n := lines.toNat + (fixedSize.toNat + 12)) (by omega)
    obtain ⟨bits, hbits⟩ := exists_toNat_eq (n := (d.itemsAvailable.toNat / 8 + 1) * 2) (by omega)
    exact ⟨lines, hlines, room, hroom, bits, hbits, by omega⟩

theorem space?_eq_none_iff (h : d.hiddenSettings = none) :
    d.space? = none ↔ 2 ^ 64 ≤ sizeFor d.itemsAvailable.toNat := by
  rw [Option.eq_none_iff_forall_ne_some]
  constructor
  · refine fun hnone => Nat.le_of_not_lt fun hlt => ?_
    obtain ⟨space, hspace⟩ := exists_toNat_eq hlt
    exact hnone space ((space?_eq_some_iff h).2 hspace)
  · intro hle space hspace
    have hlt := space.toNat_lt
    rw [(space?_eq_some_iff h).1 hspace] at hlt
    omega

/-- A machine is refused for its items if and only if its account has no size. -/
theorem initializeAt_eq_fail_iff {payer machine : Address} {settings : Settings} :
    Machine.initializeAt payer machine settings d =
      .fail (.deploy (.tooManyItems d.itemsAvailable)) ↔ d.space? = none := by
  unfold Machine.initializeAt
  cases d.space? with
  | none => exact iff_of_true rfl rfl
  | some space => exact iff_of_false nofun nofun

/-- **Account sizes are exact.** Without hidden settings, an account has the size that its items need,
computed without a bound, if that is below `2 ^ 64`, and otherwise the machine is refused for its
items. Of two sizes the one for more items is larger, and what is too many stays so when items are
added. -/
theorem space_exact (h : d.hiddenSettings = none) (h' : d'.hiddenSettings = none) :
    (∀ space, d.space? = some space ↔ sizeFor d.itemsAvailable.toNat < 2 ^ 64 ∧
        space.toNat = sizeFor d.itemsAvailable.toNat) ∧
      (∀ payer machine settings, Machine.initializeAt payer machine settings d =
          .fail (.deploy (.tooManyItems d.itemsAvailable)) ↔
        2 ^ 64 ≤ sizeFor d.itemsAvailable.toNat) ∧
      (d.itemsAvailable < d'.itemsAvailable → ∀ space space', d.space? = some space →
        d'.space? = some space' → space < space') ∧
      (d.itemsAvailable ≤ d'.itemsAvailable → d.space? = none → d'.space? = none) := by
  refine ⟨fun space => ?_, fun payer machine settings => ?_, fun hlt space space' hs hs' => ?_,
    fun hle hnone => ?_⟩
  · rw [space?_eq_some_iff h]
    exact ⟨fun hs => ⟨hs ▸ space.toNat_lt, hs⟩, And.right⟩
  · rw [initializeAt_eq_fail_iff, space?_eq_none_iff h]
  · rw [UInt64.lt_iff_toNat_lt, (space?_eq_some_iff h).1 hs, (space?_eq_some_iff h').1 hs']
    exact sizeFor_lt_sizeFor (UInt64.lt_iff_toNat_lt.1 hlt)
  · rw [space?_eq_none_iff h] at hnone
    rw [space?_eq_none_iff h']
    exact Nat.le_trans hnone (sizeFor_le_sizeFor (UInt64.le_iff_toNat_le.1 hle))

end MachineData

/-- The data of a machine with nothing but items. -/
def Sample.sale (items : UInt64) : MachineData where
  shortName := ""
  price := 0
  symbol := ""
  sellerFeeBasisPoints := 0
  maxSupply := 0
  isMutable := true
  retainAuthority := true
  goLiveDate := none
  endSettings := none
  creators := []
  hiddenSettings := none
  whitelist := none
  itemsAvailable := items
  gatekeeper := none

/-- The largest number of items that there can be an account for; one more is refused, and so is
anything above. -/
theorem MachineData.space_exact_largest :
    (Sample.sale 76781452960289493).space? = some 18446744073709551419 ∧
      (∀ payer machine settings,
        Machine.initializeAt payer machine settings (Sample.sale 76781452960289494) =
          .fail (.deploy (.tooManyItems 76781452960289494))) ∧
      ∀ items, 76781452960289494 ≤ items → (Sample.sale items).space? = none := by
  have hsizes : ∀ items items', _ := fun items items' =>
    @space_exact (Sample.sale items) (Sample.sale items') rfl rfl
  refine ⟨?_, fun payer machine settings => ?_, fun items hle => ?_⟩
  · exact ((hsizes 76781452960289493 0).1 _).2 (by decide)
  · exact ((hsizes 76781452960289494 0).2.1 payer machine settings).2 (by decide)
  · exact (hsizes 76781452960289494 items).2.2.2 hle (by decide)

end CandyDrop
