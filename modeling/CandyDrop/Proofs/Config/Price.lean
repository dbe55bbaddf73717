import CandyDrop.Config.Units
import CandyDrop.Proofs.Binary64.Power

/-!
# Prices in base units

A price is multiplied by the base units of one token, and the product is rounded to an integer. None
of this can fail: an amount that does not fit becomes the largest number of 64 bits. So for a price
that passes its check the units are those of its amount, kept within 64 bits (`Config.Clamped`). Up to
22 decimals the base units of a token are a double, and the product is the only number that is rounded
before the integer; then it is known exactly from which amount on the units are the largest number.
-/

namespace CandyDrop

/-! ## Rounding to an integer -/

namespace Binary64

variable {x y : Binary64} {q : ℚ}

theorem nearestNat_eq (x : Binary64) : x.nearestNat = ⌊x.magnitude + 1 / 2⌋₊ := by
  have hpos : (0 : ℚ) < power 2 (-x.scale) := Nat.cast_pos.2 (power_pos _)
  have hvalue : x.magnitude + 1 / 2 =
      (2 * (x.significand * power 2 x.scale) + power 2 (-x.scale) : ℕ) /
        (2 * power 2 (-x.scale) : ℕ) := by
    rw [magnitude, two_zpow_eq]
    push_cast
    field_simp
  rw [hvalue, Rat.natFloor_natCast_div_natCast]
  rfl

/-- Beyond 64 bits it makes no difference that an infinity is not rounded. -/
theorem toNat_roundToUInt64 (h : x.IsUnsigned) :
    x.roundToUInt64.toNat = min ⌊x.magnitude + 1 / 2⌋₊ (2 ^ 64 - 1) := by
  have htop : ∀ n, (UInt64.ofNat (min n (UInt64.size - 1))).toNat = min n (2 ^ 64 - 1) := fun n =>
    UInt64.toNat_ofNat_of_lt (Nat.lt_of_le_of_lt (Nat.min_le_right ..) (by decide))
  rw [roundToUInt64, isNaN_of_isUnsigned h, negative_of_isUnsigned h, if_neg (by simp)]
  by_cases hfinite : x.isFinite = true
  · rw [hfinite, if_neg (by simp), htop, nearestNat_eq]
  · have hlarge : 2 ^ 64 - 1 ≤ ⌊x.magnitude + 1 / 2⌋₊ := by
      rw [magnitude_of_not_isFinite h hfinite]
      refine Nat.le_floor ?_
      calc ((2 ^ 64 - 1 : ℕ) : ℚ) ≤ 2 ^ (64 : ℤ) := by norm_num
        _ ≤ 2 ^ (1024 : ℤ) := zpow_le_zpow_right₀ one_le_two (by norm_num)
        _ ≤ 2 ^ (1024 : ℤ) + 1 / 2 := le_add_of_nonneg_right one_half_pos.le
    rw [Bool.eq_false_iff.2 hfinite, if_pos (by simp), Nat.min_eq_right hlarge]
    rfl

end Binary64

/-! ## The base units of one token -/

namespace Config

variable {price : Binary64} {decimals : UInt8} {units : UInt64}

/-- The base units of one token. -/
def tokenUnits (decimals : UInt8) : Binary64 :=
  if decimals = nativeDecimals then Binary64.ofNat lamportsPerToken
  else (Binary64.ofNat 10).pow decimals.toNat

theorem isDouble_ten_pow {i : ℕ} (hi : i ≤ 22) : Binary64.IsDouble (10 ^ i) := by
  refine ⟨5 ^ i, i, ?_, by omega, ?_, ?_⟩
  · exact (Nat.pow_le_pow_right (by norm_num) hi).trans (by norm_num)
  · rw [zpow_natCast, Nat.cast_pow, ← mul_pow]
    norm_num
  · calc (10 : ℚ) ^ i ≤ 10 ^ 22 := pow_le_pow_right₀ (by norm_num) hi
      _ ≤ 2 ^ (74 : ℤ) := by norm_num
      _ ≤ 2 ^ (1024 : ℤ) := zpow_le_zpow_right₀ one_le_two (by norm_num)

theorem between_ten : (Binary64.ofNat 10).Between 10 10 := by
  simpa using Binary64.between_ofNat (n := 10) (by norm_num)

/-- Up to 22 decimals the base units of a token are exact. -/
theorem between_tokenUnits_of_le (h : decimals.toNat ≤ 22) :
    (tokenUnits decimals).Between (10 ^ decimals.toNat) (10 ^ decimals.toNat) := by
  unfold tokenUnits
  split
  · next hnative =>
    have hunits : lamportsPerToken = 10 ^ decimals.toNat := by rw [hnative]; rfl
    rw [hunits]
    exact_mod_cast Binary64.between_ofNat (n := 10 ^ decimals.toNat)
      ((Nat.pow_le_pow_right (by norm_num) (by rw [hnative]; decide)).trans
        (by norm_num : 10 ^ 9 ≤ 2 ^ 53))
  · refine between_ten.pow_eq fun i hi => ⟨isDouble_ten_pow (hi.trans h), ?_⟩
    calc (10 : ℚ) ^ i ≤ 10 ^ 22 := pow_le_pow_right₀ (by norm_num) (hi.trans h)
      _ < 2 ^ (74 : ℤ) := by norm_num
      _ ≤ 2 ^ (1024 : ℤ) := zpow_le_zpow_right₀ one_le_two (by norm_num)

theorem between_tokenUnits (decimals : UInt8) : (tokenUnits decimals).Between
    ((10 * Binary64.down) ^ decimals.toNat) ((10 * Binary64.up) ^ decimals.toNat) := by
  have hdown : 0 ≤ 10 * Binary64.down := mul_nonneg (by norm_num) Binary64.down_pos.le
  have hup : 1 ≤ 10 * Binary64.up := by linarith [Binary64.one_le_up]
  rcases le_or_gt decimals.toNat 22 with h | h
  · refine (between_tokenUnits_of_le h).mono (pow_le_pow_left₀ hdown ?_ _)
      (pow_le_pow_left₀ (by norm_num) ?_ _)
    · linarith [Binary64.down_le_one]
    · linarith [Binary64.one_le_up]
  · have hnative : decimals ≠ nativeDecimals := by
      rintro rfl
      exact absurd h (by decide)
    rw [tokenUnits, if_neg hnative]
    refine between_ten.pow (by norm_num) ?_
    have hlt := decimals.toNat_lt
    calc (10 * Binary64.up) ^ decimals.toNat ≤ (10 * Binary64.up) ^ 255 :=
          pow_le_pow_right₀ hup (by omega)
      _ ≤ (2 ^ 4) ^ 255 :=
          pow_le_pow_left₀ (zero_le_one.trans hup) (by norm_num [Binary64.up]) _
      _ = 2 ^ ((1020 : ℕ) : ℤ) := by rw [← pow_mul, zpow_natCast]
      _ ≤ 2 ^ (1023 : ℤ) := zpow_le_zpow_right₀ one_le_two (by norm_num)

/-! ## The product -/

/-- A price is finite, and it is not below zero. -/
theorem checkPrice_eq_ok_iff :
    checkPrice price = .ok () ↔ price.isFinite = true ∧ 0 ≤ price.value := by
  rw [checkPrice]
  split
  · next h =>
    obtain ⟨hfinite, hsign⟩ := Bool.and_eq_true_iff.1 h
    exact iff_of_true rfl ⟨hfinite, (Binary64.isNonnegative_iff hfinite).1 hsign⟩
  · next h =>
    refine iff_of_false (fun h => by cases h) fun ⟨hfinite, hvalue⟩ => h ?_
    rw [hfinite, (Binary64.isNonnegative_iff hfinite).2 hvalue, Bool.and_true]

theorem baseUnits_eq_ok_iff : baseUnits price decimals = .ok units ↔
    (price.isFinite = true ∧ 0 ≤ price.value) ∧
      units = (price.mul (tokenUnits decimals)).roundToUInt64 := by
  rw [← checkPrice_eq_ok_iff, baseUnits]
  cases checkPrice price with
  | error e => exact iff_of_false (fun h => by cases h) fun h => by cases h.1
  | ok _ => exact ⟨fun h => ⟨rfl, (Except.ok.inj h).symm⟩, fun h => congrArg Except.ok h.2.symm⟩

/-- The product is rounded once. That of a negative zero has a sign, which no integer shows. -/
theorem exists_roundsTo_product (hfinite : price.isFinite = true) (hvalue : 0 ≤ price.value)
    (decimals : UInt8) :
    ∃ x, Binary64.RoundsTo (price.value * (tokenUnits decimals).magnitude) x ∧
      (price.mul (tokenUnits decimals)).roundToUInt64 = x.roundToUInt64 := by
  have hunits := between_tokenUnits decimals
  rcases Binary64.isUnsigned_or_zero hfinite hvalue with h | ⟨hsign, hzero⟩
  · refine ⟨_, ?_, rfl⟩
    rw [Binary64.value_of_isUnsigned h]
    exact Binary64.roundsTo_mul h hfinite hunits.isUnsigned hunits.isFinite
  · refine ⟨Binary64.zero false, ?_, ?_⟩
    · rw [Binary64.value, if_pos hsign, Binary64.magnitude_eq_zero_iff.2 hzero, neg_zero, zero_mul]
      exact ⟨_, _, Binary64.rounds_zero⟩
    · rw [Binary64.mul_of_negative_zero hsign hfinite hzero hunits.isUnsigned hunits.isFinite]
      decide +kernel

/-! ## Within 64 bits -/

variable {q amount part : ℚ} {x : Binary64}

/-- The units are those of an amount that is kept within 64 bits, up to a rounding to an integer and a
part of the amount. -/
def Within (part amount : ℚ) (units : UInt64) : Prop :=
  |(units.toNat : ℚ) - min amount (2 ^ 64 - 1)| ≤ 1 / 2 + part * min amount (2 ^ 64 - 1)

/-- A number that is off by a part of the amount, rounded to an integer and kept within bounds. -/
theorem abs_min_floor_sub_le {m : ℚ} (hamount : 0 ≤ amount) (hpart : 0 ≤ part) (hpart' : part ≤ 1)
    (hm : 0 ≤ m) (hlow : amount * (1 - part) ≤ m) (hhigh : m ≤ amount * (1 + part)) (top : ℕ) :
    |((min ⌊m + 1 / 2⌋₊ top : ℕ) : ℚ) - min amount top| ≤ 1 / 2 + part * min amount top := by
  have hfloor : (⌊m + 1 / 2⌋₊ : ℚ) ≤ m + 1 / 2 := Nat.floor_le (by positivity)
  have hfloor' : m - 1 / 2 < ⌊m + 1 / 2⌋₊ := by linarith [Nat.lt_floor_add_one (m + 1 / 2)]
  have htop : (0 : ℚ) ≤ top := Nat.cast_nonneg top
  rw [Nat.cast_min, abs_le]
  rcases le_total amount top with h | h
  · have hscaled : 0 ≤ part * amount := mul_nonneg hpart hamount
    rw [min_eq_left h]
    constructor
    · have hle : amount - (1 / 2 + part * amount) ≤ min (⌊m + 1 / 2⌋₊ : ℚ) top :=
        le_min (by linarith) (by linarith)
      linarith
    · linarith [min_le_left (⌊m + 1 / 2⌋₊ : ℚ) top]
  · have hscaled : 0 ≤ part * top := mul_nonneg hpart htop
    have hshort : top * (1 - part) ≤ amount * (1 - part) :=
      mul_le_mul_of_nonneg_right h (sub_nonneg.2 hpart')
    rw [min_eq_right h]
    constructor
    · have hle : top - (1 / 2 + part * top) ≤ min (⌊m + 1 / 2⌋₊ : ℚ) top :=
        le_min (by linarith) (by linarith)
      linarith
    · linarith [min_le_right (⌊m + 1 / 2⌋₊ : ℚ) top]

/-- Which quotients are rounded to a double that is beyond 64 bits. -/
theorem roundToUInt64_eq_top_iff (h : Binary64.RoundsTo q x) :
    x.roundToUInt64.toNat = 2 ^ 64 - 1 ↔ 2 ^ 64 - 2 ^ 10 ≤ q := by
  have hhalf : (2 ^ 53 - 1 / 2) * (2 : ℚ) ^ (11 : ℤ) = 2 ^ 64 - 2 ^ 10 := by norm_num
  rw [Binary64.toNat_roundToUInt64 h.isUnsigned, min_eq_right_iff, Nat.le_floor_iff' (by norm_num)]
  rcases le_or_gt (2 ^ 64 - 2 ^ 10) q with hq | hq
  · refine iff_of_true ?_ hq
    have hlarge := h.two_pow_le_magnitude (j := 11) (by norm_num) (by norm_num) (hhalf.trans_le hq)
    norm_num at hlarge ⊢
    linarith
  · refine iff_of_false (fun hlarge => ?_) (not_le.2 hq)
    have hsmall := h.magnitude_le_pred (j := 11) (by norm_num) (by norm_num) (hq.trans_eq hhalf.symm)
    norm_num at hlarge hsmall
    linarith

theorem roundToUInt64_eq_zero (h : Binary64.RoundsTo q x) (hq : q ≤ 1 / 4) :
    x.roundToUInt64.toNat = 0 := by
  have hquarter : (2 : ℚ) ^ (-2 : ℤ) = 1 / 4 := by norm_num
  have hdouble : Binary64.IsDouble (1 / 4) :=
    hquarter ▸ Binary64.isDouble_two_zpow (by norm_num) (by norm_num)
  have hfloor : ⌊x.magnitude + 1 / 2⌋₊ = 0 :=
    Nat.floor_eq_zero.2 (by linarith [h.magnitude_le hdouble hq])
  rw [Binary64.toNat_roundToUInt64 h.isUnsigned, hfloor, Nat.zero_min]

theorem within_of_toNat_eq_zero (hunits : units.toNat = 0) (hpart : 0 ≤ part)
    (hamount : 0 ≤ amount) (hle : amount ≤ 1 / 2) : Within part amount units := by
  have hkept : min amount (2 ^ 64 - 1) = amount := min_eq_left (hle.trans (by norm_num))
  have hscaled : 0 ≤ part * amount := mul_nonneg hpart hamount
  rw [Within, hunits, hkept, Nat.cast_zero, zero_sub, abs_neg, abs_of_nonneg hamount]
  linarith

theorem within_of_toNat_eq_top (hunits : units.toNat = 2 ^ 64 - 1) (hpart : 0 ≤ part)
    (hle : 2 ^ 64 - 1 ≤ amount) : Within part amount units := by
  have hcast : ((2 ^ 64 - 1 : ℕ) : ℚ) = 2 ^ 64 - 1 := by norm_num
  have hscaled : 0 ≤ part * (2 ^ 64 - 1) := mul_nonneg hpart (by norm_num)
  rw [Within, hunits, min_eq_right hle, hcast, sub_self, abs_zero]
  linarith

/-- **The units of a quotient** that is a part off the amount, with one more rounding. A quotient that
is too small for this rounding to be one part of it gives no units, and one that is too large for it
is beyond 64 bits. -/
theorem within_of_roundsTo (h : Binary64.RoundsTo q x) (hamount : 0 ≤ amount) (hpart : 0 ≤ part)
    (hpart' : part ≤ 1 / 4) (hlow : amount * (1 - part) ≤ q * Binary64.down)
    (hhigh : q * Binary64.up ≤ amount * (1 + part)) : Within part amount x.roundToUInt64 := by
  have hq : 0 ≤ q := h.nonneg
  have hbelow : amount * (3 / 4) ≤ q :=
    calc amount * (3 / 4) ≤ amount * (1 - part) := by gcongr; linarith
      _ ≤ q * Binary64.down := hlow
      _ ≤ q := mul_le_of_le_one_right hq Binary64.down_le_one
  have habove : q ≤ amount * (5 / 4) :=
    calc q ≤ q * Binary64.up := le_mul_of_one_le_right hq Binary64.one_le_up
      _ ≤ amount * (1 + part) := hhigh
      _ ≤ amount * (5 / 4) := by gcongr; linarith
  rcases le_or_gt q (1 / 4) with hsmall | hnormal
  · exact within_of_toNat_eq_zero (roundToUInt64_eq_zero h hsmall) hpart hamount (by linarith)
  rcases le_or_gt (2 ^ 65) q with hlarge | hrange
  · have htop := (roundToUInt64_eq_top_iff h).2 (by linarith)
    exact within_of_toNat_eq_top htop hpart (by linarith)
  · have hlow' : (2 : ℚ) ^ (-1022 : ℤ) ≤ q :=
      (zpow_le_zpow_right₀ (m := -1022) (n := -2) one_le_two (by norm_num)).trans
        (by norm_num; linarith)
    have hhigh' : q ≤ (2 : ℚ) ^ (1023 : ℤ) :=
      hrange.le.trans (zpow_le_zpow_right₀ (m := (65 : ℕ)) one_le_two (by norm_num))
    have hx := h.between_of_le hlow' hhigh'
    have hcast : (2 ^ 64 - 1 : ℚ) = (2 ^ 64 - 1 : ℕ) := by norm_num
    rw [Within, Binary64.toNat_roundToUInt64 h.isUnsigned, hcast]
    exact abs_min_floor_sub_le hamount hpart (by linarith) x.magnitude_nonneg
      (hlow.trans hx.low_le) (hx.le_high.trans hhigh) _

/-! ## The units of a price -/

/-- The exact amount of base units that a price stands for. -/
def exactUnits (price : Binary64) (decimals : UInt8) : ℚ := price.value * 10 ^ decimals.toNat

/-- What becomes of an amount in base units: it is kept within 64 bits instead of being refused. The
units are off by no more than the rounding of doubles makes them, and by less where powers of ten are
exact. -/
structure Clamped (decimals : UInt8) (amount : ℚ) (units : UInt64) : Prop where
  within : Within (1 / 2 ^ 44) amount units
  full : 2 ^ 64 + 2 ^ 20 ≤ amount → units.toNat = 2 ^ 64 - 1
  within_of_exact : decimals.toNat ≤ 22 → Within (1 / 2 ^ 53) amount units
  full_iff : decimals.toNat ≤ 22 → (units.toNat = 2 ^ 64 - 1 ↔ 2 ^ 64 - 2 ^ 10 ≤ amount)

/-- The base units of a token and the product with them are rounded no more than 256 times. -/
theorem tokenUnits_bounds (decimals : UInt8) :
    10 ^ decimals.toNat * (1 - 1 / 2 ^ 44) ≤ (tokenUnits decimals).magnitude * Binary64.down ∧
      (tokenUnits decimals).magnitude * Binary64.up ≤ 10 ^ decimals.toNat * (1 + 1 / 2 ^ 44) := by
  have hunits := between_tokenUnits decimals
  have hlt : decimals.toNat + 1 ≤ 256 := decimals.toNat_lt
  constructor
  · calc 10 ^ decimals.toNat * (1 - 1 / 2 ^ 44) ≤ 10 ^ decimals.toNat * Binary64.down ^ 256 := by
          gcongr
          norm_num [Binary64.down]
      _ ≤ 10 ^ decimals.toNat * Binary64.down ^ (decimals.toNat + 1) := by
          gcongr 10 ^ decimals.toNat * ?_
          exact pow_le_pow_of_le_one Binary64.down_pos.le Binary64.down_le_one hlt
      _ = (10 * Binary64.down) ^ decimals.toNat * Binary64.down := by ring
      _ ≤ (tokenUnits decimals).magnitude * Binary64.down :=
          mul_le_mul_of_nonneg_right hunits.low_le Binary64.down_pos.le
  · calc (tokenUnits decimals).magnitude * Binary64.up
        ≤ (10 * Binary64.up) ^ decimals.toNat * Binary64.up :=
          mul_le_mul_of_nonneg_right hunits.le_high Binary64.up_pos.le
      _ = 10 ^ decimals.toNat * Binary64.up ^ (decimals.toNat + 1) := by ring
      _ ≤ 10 ^ decimals.toNat * Binary64.up ^ 256 := by
          gcongr 10 ^ decimals.toNat * ?_
          exact pow_le_pow_right₀ Binary64.one_le_up hlt
      _ ≤ 10 ^ decimals.toNat * (1 + 1 / 2 ^ 44) := by
          gcongr
          norm_num [Binary64.up]

/-- **The units of a price are those of its amount, clamped.** -/
theorem clamped_of_baseUnits (h : baseUnits price decimals = .ok units) :
    Clamped decimals (exactUnits price decimals) units := by
  obtain ⟨⟨hfinite, hvalue⟩, rfl⟩ := baseUnits_eq_ok_iff.1 h
  obtain ⟨x, hx, hunits⟩ := exists_roundsTo_product hfinite hvalue decimals
  rw [hunits]
  have hamount : 0 ≤ exactUnits price decimals := mul_nonneg hvalue (by positivity)
  obtain ⟨hbelow, habove⟩ := tokenUnits_bounds decimals
  have hlow : exactUnits price decimals * (1 - 1 / 2 ^ 44) ≤
      price.value * (tokenUnits decimals).magnitude * Binary64.down := by
    rw [exactUnits, mul_assoc, mul_assoc]
    exact mul_le_mul_of_nonneg_left hbelow hvalue
  have hhigh : price.value * (tokenUnits decimals).magnitude * Binary64.up ≤
      exactUnits price decimals * (1 + 1 / 2 ^ 44) := by
    rw [exactUnits, mul_assoc, mul_assoc]
    exact mul_le_mul_of_nonneg_left habove hvalue
  have hexact : decimals.toNat ≤ 22 →
      Binary64.RoundsTo (exactUnits price decimals) x := fun hle => by
    have hpower := between_tokenUnits_of_le hle
    rwa [le_antisymm hpower.le_high hpower.low_le] at hx
  refine ⟨?_, fun hfull => ?_, fun hle => ?_, fun hle => roundToUInt64_eq_top_iff (hexact hle)⟩
  · exact within_of_roundsTo hx hamount (by norm_num) (by norm_num) hlow hhigh
  · refine (roundToUInt64_eq_top_iff hx).2 ?_
    have hdown := mul_le_of_le_one_right hx.nonneg Binary64.down_le_one
    linarith
  · exact within_of_roundsTo (hexact hle) hamount (by norm_num) (by norm_num) (le_refl _) (le_refl _)

end Config

end CandyDrop
