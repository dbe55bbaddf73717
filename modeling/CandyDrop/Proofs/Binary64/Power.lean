import CandyDrop.Proofs.Binary64.Rounding

/-!
# Powers by squaring

A power is a chain of products, each of them rounded (`Binary64.powerFrom`). Along the chain one number
stands for `x ^ i` and one for `x ^ j`, and what a product keeps of two such numbers, the power has in
the end (`powerFrom_of_steps`). So a power is exact as long as all lower powers are doubles
(`Between.pow_eq`), and if it is not, it is as far off as so many roundings can make it
(`Between.pow`).
-/

namespace CandyDrop

namespace Binary64

variable {x y product square : Binary64} {i j n : ℕ}

/-! ## Along the squaring -/

section

-- `P` is what is said of the running product, `S` of the current square, both of powers up to `N`
variable {P S : ℕ → Binary64 → Prop} {N : ℕ}
  (hmul : ∀ {i j x y}, i + j ≤ N → P i x → S j y → P (i + j) (x.mul y))
  (hsquare : ∀ {j y}, j + j ≤ N → S j y → S (j + j) (y.mul y))
include hmul

theorem product_of_bit (hP : P i product) (hS : S j square) (hN : i + j * n ≤ N) :
    P (i + j * (n % 2)) (if n % 2 = 1 then product.mul square else product) := by
  split
  · next h =>
    have hle : j ≤ j * n := Nat.le_mul_of_pos_right j (by omega)
    rw [h, mul_one]
    exact hmul (by omega) hP hS
  · next h =>
    rw [Nat.mod_two_ne_one.1 h, mul_zero, add_zero]
    exact hP

include hsquare

/-- **What products keep, a power has.** -/
theorem powerFrom_of_steps (hP : P i product) (hS : S j square) (hN : i + j * n ≤ N) :
    P (i + j * n) (powerFrom product square n) := by
  induction n using Nat.strong_induction_on generalizing i j product square with
  | _ n ih =>
    have hproduct := product_of_bit hmul hP hS hN
    rw [powerFrom]
    split
    · next hlast =>
      have hbit : i + j * n = i + j * (n % 2) := by rw [Nat.mod_eq_of_lt (by omega)]
      rw [hbit]
      exact hproduct
    · next hmore =>
      have htwo : j + j ≤ j * n := by
        rw [← mul_two]
        exact Nat.mul_le_mul_left j (by omega)
      have hsum : i + j * n = i + j * (n % 2) + (j + j) * (n / 2) := by
        conv_lhs => rw [← Nat.mod_add_div n 2]
        ring
      rw [hsum] at hN ⊢
      exact ih (n / 2) (by omega) hproduct (hsquare (by omega) hS) hN

end

/-! ## Bounds of a product -/

/-- Finite, without a sign, and with a magnitude between these bounds. -/
structure Between (x : Binary64) (low high : ℚ) : Prop where
  isUnsigned : x.IsUnsigned
  isFinite : x.isFinite = true
  low_le : low ≤ x.magnitude
  le_high : x.magnitude ≤ high

variable {q low high low' high' : ℚ}

theorem RoundsTo.between (h : RoundsTo q x) (hlow : low ≤ x.magnitude) (hhigh : x.magnitude ≤ high)
    (hfinite : high < 2 ^ (1024 : ℤ)) : x.Between low high :=
  ⟨h.isUnsigned, isFinite_of_magnitude_lt h.isUnsigned (hhigh.trans_lt hfinite), hlow, hhigh⟩

theorem Between.mono (h : x.Between low high) (hlow : low' ≤ low) (hhigh : high ≤ high') :
    x.Between low' high' :=
  ⟨h.isUnsigned, h.isFinite, hlow.trans h.low_le, h.le_high.trans hhigh⟩

theorem Between.roundsTo_mul (hx : x.Between low high) (hy : y.Between low' high') :
    RoundsTo (x.magnitude * y.magnitude) (x.mul y) :=
  Binary64.roundsTo_mul hx.isUnsigned hx.isFinite hy.isUnsigned hy.isFinite

/-- The exact product of two numbers, if it is a double. -/
theorem Between.mul_eq (hx : x.Between q q) (hy : y.Between low low) (h : IsDouble (q * low))
    (hfinite : q * low < 2 ^ (1024 : ℤ)) : (x.mul y).Between (q * low) (q * low) := by
  have hround := hx.roundsTo_mul hy
  rw [le_antisymm hx.le_high hx.low_le, le_antisymm hy.le_high hy.low_le] at hround
  have hproduct := hround.magnitude_eq h
  exact hround.between hproduct.ge hproduct.le hfinite

/-- The factors between which rounding changes a number that is not too small: it is off by one part
in `2 ^ 53` at most. -/
def down : ℚ := 1 - 1 / 2 ^ 53

def up : ℚ := 1 + 1 / 2 ^ 53

theorem half_lt_down : 1 / 2 < down := by norm_num [down]

theorem down_le_one : down ≤ 1 := by norm_num [down]

theorem one_le_up : 1 ≤ up := by norm_num [up]

theorem down_pos : 0 < down := one_half_pos.trans half_lt_down

theorem up_pos : 0 < up := one_pos.trans_le one_le_up

theorem RoundsTo.between_of_le (h : RoundsTo q x) (hlow : 2 ^ (-1022 : ℤ) ≤ q)
    (hhigh : q ≤ 2 ^ (1023 : ℤ)) : x.Between (q * down) (q * up) := by
  have hbound := abs_le.1 (h.abs_sub_le hlow hhigh)
  have hdouble : x.magnitude ≤ 2 ^ (1023 : ℤ) :=
    h.magnitude_le (isDouble_two_zpow (by norm_num) (by norm_num)) hhigh
  have hinfinity : (2 : ℚ) ^ (1023 : ℤ) < 2 ^ (1024 : ℤ) :=
    zpow_lt_zpow_right₀ one_lt_two (by norm_num)
  refine ⟨h.isUnsigned, isFinite_of_magnitude_lt h.isUnsigned (hdouble.trans_lt hinfinity), ?_, ?_⟩
  · unfold down
    linarith
  · unfold up
    linarith

/-- The bounds of a product that stays within range. -/
theorem Between.mul (hx : x.Between low high) (hy : y.Between low' high') (hlow : 1 ≤ low)
    (hlow' : 1 ≤ low') (hhigh : high * high' ≤ 2 ^ (1023 : ℤ)) :
    (x.mul y).Between (low * low' * down) (high * high' * up) := by
  have hbelow : low * low' ≤ x.magnitude * y.magnitude :=
    mul_le_mul hx.low_le hy.low_le (zero_le_one.trans hlow') x.magnitude_nonneg
  have habove : x.magnitude * y.magnitude ≤ high * high' :=
    mul_le_mul hx.le_high hy.le_high y.magnitude_nonneg (x.magnitude_nonneg.trans hx.le_high)
  have hnormal : (2 : ℚ) ^ (-1022 : ℤ) ≤ low * low' :=
    (zpow_le_one_of_nonpos₀ one_le_two (by norm_num)).trans
      (one_le_mul_of_one_le_of_one_le hlow hlow')
  have h := (hx.roundsTo_mul hy).between_of_le (hnormal.trans hbelow) (habove.trans hhigh)
  refine ⟨h.isUnsigned, h.isFinite, ?_, ?_⟩
  · exact (mul_le_mul_of_nonneg_right hbelow down_pos.le).trans h.low_le
  · exact h.le_high.trans (mul_le_mul_of_nonneg_right habove up_pos.le)

/-! ## Powers -/

theorem between_ofNat (hn : n ≤ 2 ^ 53) : (ofNat n).Between n n := by
  have h := magnitude_ofNat hn
  refine (roundsTo_ofNat n).between h.ge h.le ?_
  calc (n : ℚ) ≤ 2 ^ (53 : ℕ) := by exact_mod_cast hn
    _ < 2 ^ (1024 : ℤ) := zpow_lt_zpow_right₀ (m := (53 : ℕ)) one_lt_two (by norm_num)

theorem between_one : (ofNat 1).Between 1 1 := by
  simpa using between_ofNat (n := 1) (by norm_num)

/-- **A power is exact** if all powers up to it are doubles. -/
theorem Between.pow_eq (hx : x.Between q q)
    (h : ∀ i ≤ n, IsDouble (q ^ i) ∧ q ^ i < 2 ^ (1024 : ℤ)) : (x.pow n).Between (q ^ n) (q ^ n) := by
  have hmul : ∀ {i j : ℕ} {x y : Binary64}, i + j ≤ n → x.Between (q ^ i) (q ^ i) →
      y.Between (q ^ j) (q ^ j) → (x.mul y).Between (q ^ (i + j)) (q ^ (i + j)) := by
    intro i j x y hn hx hy
    obtain ⟨hdouble, hfinite⟩ := h _ hn
    rw [pow_add] at hdouble hfinite ⊢
    exact hx.mul_eq hy hdouble hfinite
  have hpower := powerFrom_of_steps (P := fun i x => x.Between (q ^ i) (q ^ i))
    (S := fun i x => x.Between (q ^ i) (q ^ i)) (i := 0) (j := 1) (n := n) (N := n) hmul
    (fun hn hy => hmul hn hy hy) (by simpa using between_one) (by simpa using hx) (by omega)
  simpa [pow] using hpower

/-- **The bounds of a power**: one rounding for each factor. -/
theorem Between.pow (hx : x.Between q q) (hq : 2 ≤ q) (hn : (q * up) ^ n ≤ 2 ^ (1023 : ℤ)) :
    (x.pow n).Between ((q * down) ^ n) ((q * up) ^ n) := by
  have hlow : 1 ≤ q * down := by nlinarith [half_lt_down]
  have hhigh : 1 ≤ q * up := by nlinarith [one_le_up]
  have hlow' : ∀ j, 1 ≤ (q * down) ^ j / down := fun j =>
    (one_le_div down_pos).2 (down_le_one.trans (one_le_pow₀ hlow))
  have hpos : ∀ j, 0 ≤ (q * up) ^ j / up := fun j =>
    div_nonneg (pow_nonneg (zero_le_one.trans hhigh) j) up_pos.le
  have hhigh' : ∀ j, (q * up) ^ j / up ≤ (q * up) ^ j := fun j =>
    div_le_self (pow_nonneg (zero_le_one.trans hhigh) j) one_le_up
  have hrange : ∀ {a b i j}, i + j ≤ n → a ≤ (q * up) ^ i → 0 ≤ b → b ≤ (q * up) ^ j →
      a * b ≤ 2 ^ (1023 : ℤ) := by
    intro a b i j hij ha hb hb'
    calc a * b ≤ (q * up) ^ i * (q * up) ^ j :=
          mul_le_mul ha hb' hb (pow_nonneg (zero_le_one.trans hhigh) i)
      _ = (q * up) ^ (i + j) := (pow_add _ i j).symm
      _ ≤ (q * up) ^ n := pow_le_pow_right₀ hhigh hij
      _ ≤ 2 ^ (1023 : ℤ) := hn
  -- a square has one rounding less than factors, so that the product with it has as many
  have hpower : (powerFrom (ofNat 1) x n).Between ((q * down) ^ (0 + 1 * n))
      ((q * up) ^ (0 + 1 * n)) := by
    refine powerFrom_of_steps (P := fun i x => x.Between ((q * down) ^ i) ((q * up) ^ i))
      (S := fun j x => x.Between ((q * down) ^ j / down) ((q * up) ^ j / up)) (N := n)
      ?_ ?_ ?_ ?_ (by omega)
    · intro i j x y hij hx hy
      have h := hx.mul hy (one_le_pow₀ hlow) (hlow' j)
        (hrange hij (le_refl _) (hpos j) (hhigh' j))
      rwa [mul_assoc, div_mul_cancel₀ _ down_pos.ne', ← pow_add, mul_assoc,
        div_mul_cancel₀ _ up_pos.ne', ← pow_add] at h
    · intro j y hij hy
      have h := hy.mul hy (hlow' j) (hlow' j) (hrange hij (hhigh' j) (hpos j) (hhigh' j))
      rwa [mul_assoc, div_mul_cancel₀ _ down_pos.ne', div_mul_eq_mul_div, ← pow_add, mul_assoc,
        div_mul_cancel₀ _ up_pos.ne', div_mul_eq_mul_div, ← pow_add] at h
    · simpa using between_one
    · rwa [pow_one, pow_one, mul_div_cancel_right₀ _ down_pos.ne',
        mul_div_cancel_right₀ _ up_pos.ne']
  simpa [Binary64.pow] using hpower

end Binary64

end CandyDrop
