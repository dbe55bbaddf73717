import CandyDrop.Binary64.Basic
import Mathlib.Algebra.Order.Field.Power
import Mathlib.Data.Rat.Floor
import Mathlib.Tactic.FieldSimp
import Mathlib.Tactic.GCongr
import Mathlib.Tactic.Linarith
import Mathlib.Tactic.NormNum
import Mathlib.Tactic.Positivity
import Mathlib.Tactic.Ring

/-!
# The value of a double

The value of a finite double is a rational, `± significand * 2 ^ scale`. Read by the same rule, the bits
of an infinity have the magnitude `2 ^ 1024`, so that `Binary64.magnitude` grows with the bits up to
infinity and no case has to be made for it (`magnitude_withSign`, `isFinite_of_magnitude_lt`).
-/

namespace CandyDrop

namespace Binary64

variable {x : Binary64} {k m n : ℕ}

/-- The magnitude of a number; that of an infinity is `2 ^ 1024`. -/
def magnitude (x : Binary64) : ℚ := x.significand * 2 ^ x.scale

/-- The value of a finite number. -/
def value (x : Binary64) : ℚ := if x.negative then -x.magnitude else x.magnitude

theorem magnitude_nonneg (x : Binary64) : 0 ≤ x.magnitude :=
  mul_nonneg (Nat.cast_nonneg _) (zpow_nonneg (by norm_num) _)

/-! ## Powers of two -/

@[simp] theorem power_natCast (base k : ℕ) : power base k = base ^ k := by
  rw [power, Int.toNat_natCast, Nat.pow_eq]

theorem power_of_nonpos {base : ℕ} {k : ℤ} (h : k ≤ 0) : power base k = 1 := by
  rw [power, Int.toNat_of_nonpos h, Nat.pow_eq, pow_zero]

theorem power_pos (k : ℤ) : 0 < power 2 k := by
  rw [power, Nat.pow_eq]
  exact Nat.two_pow_pos _

/-- A power of two, as the quotient of two naturals of which one is one. -/
theorem two_zpow_eq (k : ℤ) : (2 : ℚ) ^ k = power 2 k / power 2 (-k) := by
  rcases Int.le_total 0 k with h | h
  · obtain ⟨n, rfl⟩ := Int.eq_ofNat_of_zero_le h
    rw [power_natCast, power_of_nonpos (k := -_) (by omega)]
    simp
  · obtain ⟨n, hn⟩ := Int.eq_ofNat_of_zero_le (Int.neg_nonneg_of_nonpos h)
    obtain rfl : k = -(n : ℤ) := by omega
    rw [Int.neg_neg, power_natCast, power_of_nonpos h]
    simp

theorem two_pow_mul_two_zpow (n : ℕ) (k : ℤ) : (2 : ℚ) ^ n * 2 ^ k = 2 ^ (n + k) := by
  rw [zpow_add₀ two_ne_zero, zpow_natCast]

/-! ## Numbers without a sign -/

/-- The bits of the infinity without a sign. -/
def infinityBits : ℕ := 2047 * 2 ^ 52

/-- The sign bit is not set, and the number is not NaN. -/
def IsUnsigned (x : Binary64) : Prop := x.bits.toNat ≤ infinityBits

theorem toNat_bits_withSign (h : n ≤ infinityBits) : (withSign false n).bits.toNat = n := by
  rw [withSign, if_neg Bool.false_ne_true, Nat.zero_add]
  exact UInt64.toNat_ofNat_of_lt (Nat.lt_of_le_of_lt h (by decide))

theorem isUnsigned_withSign (h : n ≤ infinityBits) : (withSign false n).IsUnsigned :=
  (toNat_bits_withSign h).trans_le h

theorem negative_of_isUnsigned (h : x.IsUnsigned) : x.negative = false := by
  unfold IsUnsigned infinityBits at h
  rw [negative, decide_eq_false_iff_not]
  omega

theorem isNaN_of_isUnsigned (h : x.IsUnsigned) : x.isNaN = false := by
  unfold IsUnsigned infinityBits at h
  simp only [isNaN, exponentField, fractionField, Nat.shiftLeft_eq, one_mul, Bool.and_eq_false_imp,
    beq_iff_eq, bne_eq_false_iff_eq]
  omega

theorem value_of_isUnsigned (h : x.IsUnsigned) : x.value = x.magnitude :=
  if_neg (Bool.eq_false_iff.1 (negative_of_isUnsigned h))

theorem magnitude_fields (field fraction : ℕ) (hfraction : fraction < 2 ^ 52)
    (h : field * 2 ^ 52 + fraction ≤ infinityBits) :
    (withSign false (field * 2 ^ 52 + fraction)).magnitude =
      if field = 0 then (fraction : ℚ) * 2 ^ (-1074 : ℤ)
      else ((2 : ℚ) ^ 52 + fraction) * 2 ^ ((field : ℤ) - 1075) := by
  have hbits := toNat_bits_withSign h
  unfold infinityBits at h
  have hfield : (field * 2 ^ 52 + fraction) / 2 ^ 52 % 2 ^ 11 = field := by omega
  have hrest : (field * 2 ^ 52 + fraction) % 2 ^ 52 = fraction := by omega
  simp only [magnitude, significand, scale, exponentField, fractionField, hbits, Nat.shiftLeft_eq,
    one_mul, hfield, hrest]
  split
  · rfl
  · push_cast
    rfl

/-- **The magnitude of the bits `k * 2 ^ 52 + m`.** A significand `m` of 53 bits adds its leading bit
to the exponent field, and one that has grown to `2 ^ 53` adds another one, so that the magnitude is
`m * 2 ^ (k - 1074)` in any case. -/
theorem magnitude_withSign (hm : m ≤ 2 ^ 53) (hk : 2 ^ 52 ≤ m ∨ k = 0)
    (h : k * 2 ^ 52 + m ≤ infinityBits) :
    (withSign false (k * 2 ^ 52 + m)).magnitude = m * 2 ^ ((k : ℤ) - 1074) := by
  rcases Nat.lt_or_ge m (2 ^ 52) with hlt | hge
  · obtain rfl : k = 0 := hk.resolve_left (by omega)
    rw [magnitude_fields _ _ hlt h, if_pos rfl]
    rfl
  rcases Nat.lt_or_ge m (2 ^ 53) with hlt | hcarry
  · obtain ⟨t, rfl⟩ := Nat.exists_eq_add_of_le hge
    have hbits : k * 2 ^ 52 + (2 ^ 52 + t) = (k + 1) * 2 ^ 52 + t := by ring
    rw [hbits] at h ⊢
    rw [magnitude_fields _ _ (by omega) h, if_neg (Nat.succ_ne_zero k)]
    push_cast
    ring_nf
  · obtain rfl : m = 2 ^ 53 := Nat.le_antisymm hm hcarry
    have hbits : k * 2 ^ 52 + 2 ^ 53 = (k + 2) * 2 ^ 52 + 0 := by ring
    rw [hbits] at h ⊢
    rw [magnitude_fields _ _ (by norm_num) h, if_neg (Nat.succ_ne_zero _)]
    have hscale : ((k + 2 : ℕ) : ℤ) - 1075 = ((k : ℤ) - 1074) + 1 := by push_cast; ring
    rw [hscale, zpow_add_one₀ two_ne_zero]
    push_cast
    ring

theorem magnitude_zero : (zero false).magnitude = 0 := by
  have h := magnitude_fields 0 0 (by norm_num) (Nat.zero_le _)
  rw [if_pos rfl, Nat.cast_zero, zero_mul (2 ^ (-1074 : ℤ) : ℚ)] at h
  exact h

theorem magnitude_infinity : (infinity false).magnitude = 2 ^ (1024 : ℤ) := by
  have h := magnitude_fields 2047 0 (by norm_num) (Nat.le_refl _)
  rw [if_neg (by norm_num), Nat.cast_zero, add_zero (2 ^ 52 : ℚ), two_pow_mul_two_zpow] at h
  exact h

theorem magnitude_of_not_isFinite (h : x.IsUnsigned) (hx : ¬x.isFinite = true) :
    x.magnitude = 2 ^ (1024 : ℤ) := by
  unfold IsUnsigned infinityBits at h
  rw [isFinite, bne_iff_ne, not_not] at hx
  have hfraction : x.fractionField = 0 := by
    simp only [exponentField, fractionField, Nat.shiftLeft_eq, one_mul] at hx ⊢
    omega
  have hmagnitude : x.magnitude = 2 ^ 52 * 2 ^ (972 : ℤ) := by
    rw [magnitude, significand, scale, hx, hfraction, Nat.shiftLeft_eq]
    norm_num
  rw [hmagnitude, two_pow_mul_two_zpow]
  norm_num

/-- A number without a sign is finite if its magnitude is below that of infinity. -/
theorem isFinite_of_magnitude_lt (h : x.IsUnsigned) (hlt : x.magnitude < 2 ^ (1024 : ℤ)) :
    x.isFinite = true :=
  by_contra fun hx => hlt.ne (magnitude_of_not_isFinite h hx)

/-! ## Numbers that are not negative -/

theorem magnitude_eq_zero_iff : x.magnitude = 0 ↔ x.significand = 0 := by
  rw [magnitude, mul_eq_zero_iff_right (zpow_pos two_pos _).ne', Nat.cast_eq_zero]

/-- A finite number that is not negative has no sign, or it is the negative zero. -/
theorem isUnsigned_or_zero (hfinite : x.isFinite = true) (h : 0 ≤ x.value) :
    x.IsUnsigned ∨ x.negative = true ∧ x.significand = 0 := by
  cases hsign : x.negative with
  | false =>
    refine .inl ?_
    rw [isFinite, bne_iff_ne, exponentField, Nat.shiftLeft_eq, Nat.shiftLeft_eq] at hfinite
    rw [negative, decide_eq_false_iff_not, Nat.shiftLeft_eq] at hsign
    unfold IsUnsigned infinityBits
    omega
  | true =>
    rw [value, if_pos hsign, Left.nonneg_neg_iff] at h
    exact .inr ⟨rfl, magnitude_eq_zero_iff.1 (le_antisymm h x.magnitude_nonneg)⟩

theorem isNaN_of_isFinite (hfinite : x.isFinite = true) : x.isNaN = false := by
  rw [isFinite, bne_iff_ne] at hfinite
  rw [isNaN, beq_false_of_ne hfinite, Bool.false_and]

theorem isNonnegative_iff (hfinite : x.isFinite = true) : x.isNonnegative = true ↔ 0 ≤ x.value := by
  rw [isNonnegative, isZero, isNaN_of_isFinite hfinite, hfinite, value]
  cases x.negative with
  | false => simpa using x.magnitude_nonneg
  | true =>
    have h := x.magnitude_nonneg.ge_iff_eq'
    simp [h, magnitude_eq_zero_iff]

end Binary64

end CandyDrop
