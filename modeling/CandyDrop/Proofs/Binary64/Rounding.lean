import CandyDrop.Proofs.Binary64.Value

/-!
# Rounding to the nearest double

A quotient `q` is rounded to a multiple of a power of two, its grid: the finest one on which `q` has no
more than 53 bits, or the finest one there is. Of the two multiples next to `q` the nearer one is taken,
and the even one in a tie (`Binary64.OnGrid`). What follows for magnitudes is stated without the grid:
rounding keeps the order to every number that is a double (`RoundsTo.le_magnitude`,
`RoundsTo.magnitude_le`), keeps a double itself, and is off by one part in `2 ^ 53` at most
(`RoundsTo.abs_sub_le`).
-/

namespace CandyDrop

namespace Binary64

variable {x y : Binary64} {num den m n : ℕ} {e : ℤ} {q : ℚ}

/-! ## To the nearest natural -/

/-- The nearest natural is at most `n` up to the half above `n`, which goes to the even side. -/
theorem divNearestEven_le_iff (hden : 0 < den) :
    divNearestEven num den ≤ n ↔
      2 * num < (2 * n + 1) * den ∨ 2 * num = (2 * n + 1) * den ∧ Even n := by
  have hdiv := Nat.div_add_mod num den
  have hmod := Nat.mod_lt num hden
  rw [Nat.even_iff]
  unfold divNearestEven
  dsimp only
  generalize num / den = t at *
  generalize num % den = r at *
  subst hdiv
  rcases Nat.lt_trichotomy n t with hlt | rfl | hgt
  · have hbelow : (2 * n + 1) * den + den ≤ 2 * (den * t) := by nlinarith
    refine iff_of_false ?_ (by omega)
    split
    · omega
    · split <;> omega
  · have hself : (2 * n + 1) * den = 2 * (den * n) + den := by ring
    rw [hself]
    split
    · omega
    · split <;> omega
  · have habove : 2 * (den * t) + 3 * den ≤ (2 * n + 1) * den := by nlinarith
    refine iff_of_true ?_ (by omega)
    split
    · omega
    · split <;> omega

/-! ## The grid -/

/-- A quotient in units of `2 ^ e`, as a quotient of naturals. -/
theorem div_two_zpow_eq (num den : ℕ) (e : ℤ) :
    (num / den : ℚ) / 2 ^ e = (num * power 2 (-e) : ℕ) / (den * power 2 e : ℕ) := by
  rw [two_zpow_eq e, div_div_div_eq]
  push_cast
  rfl

theorem div_lt_mul_iff (hden : 0 < den) (c : ℚ) :
    (num / den : ℚ) < c * 2 ^ e ↔ (num * power 2 (-e) : ℕ) < c * (den * power 2 e : ℕ) := by
  have hpos : (0 : ℚ) < (den * power 2 e : ℕ) := Nat.cast_pos.2 (Nat.mul_pos hden (power_pos e))
  rw [← div_lt_iff₀ (zpow_pos two_pos e), div_two_zpow_eq, div_lt_iff₀ hpos]

/-- The first guess of a grid is one too coarse or right. -/
theorem guess_bounds (hnum : num ≠ 0) (hden : den ≠ 0) :
    let e : ℤ := (num.log2 : ℤ) - den.log2 - 52
    2 ^ 51 * 2 ^ e ≤ (num / den : ℚ) ∧ (num / den : ℚ) < 2 ^ 53 * 2 ^ e := by
  intro e
  have hnum₁ : (2 : ℚ) ^ num.log2 ≤ num := by exact_mod_cast Nat.log2_self_le hnum
  have hnum₂ : (num : ℚ) < 2 ^ (num.log2 + 1) := by exact_mod_cast Nat.lt_log2_self
  have hden₁ : (2 : ℚ) ^ den.log2 ≤ den := by exact_mod_cast Nat.log2_self_le hden
  have hden₂ : (den : ℚ) < 2 ^ (den.log2 + 1) := by exact_mod_cast Nat.lt_log2_self
  have hpos : (0 : ℚ) < den := Nat.cast_pos.2 (Nat.pos_of_ne_zero hden)
  have hlow : (2 : ℚ) ^ 51 * 2 ^ e * 2 ^ (den.log2 + 1) = 2 ^ num.log2 := by
    rw [two_pow_mul_two_zpow, mul_comm, two_pow_mul_two_zpow, ← zpow_natCast]
    congr 1
    push_cast
    omega
  have hhigh : (2 : ℚ) ^ 53 * 2 ^ e * 2 ^ den.log2 = 2 ^ (num.log2 + 1) := by
    rw [two_pow_mul_two_zpow, mul_comm, two_pow_mul_two_zpow, ← zpow_natCast]
    congr 1
    push_cast
    omega
  constructor
  · rw [le_div_iff₀ hpos]
    calc (2 : ℚ) ^ 51 * 2 ^ e * den ≤ 2 ^ 51 * 2 ^ e * 2 ^ (den.log2 + 1) := by gcongr
      _ = 2 ^ num.log2 := hlow
      _ ≤ num := hnum₁
  · rw [div_lt_iff₀ hpos]
    calc (num : ℚ) < 2 ^ (num.log2 + 1) := hnum₂
      _ = 2 ^ 53 * 2 ^ e * 2 ^ den.log2 := hhigh.symm
      _ ≤ 2 ^ 53 * 2 ^ e * den := by gcongr

/-- A guess that is one too coarse is made finer by one. -/
theorem finer_bounds (hden : 0 < den) (hlow : 2 ^ 51 * 2 ^ e ≤ (num / den : ℚ))
    (hhigh : (num / den : ℚ) < 2 ^ 53 * 2 ^ e) :
    let e' := if num * power 2 (-e) < (den * power 2 e) <<< 52 then e - 1 else e
    2 ^ 52 * 2 ^ e' ≤ (num / den : ℚ) ∧ (num / den : ℚ) < 2 ^ 53 * 2 ^ e' := by
  have htest : num * power 2 (-e) < (den * power 2 e) <<< 52 ↔ (num / den : ℚ) < 2 ^ 52 * 2 ^ e := by
    rw [div_lt_mul_iff hden, Nat.shiftLeft_eq, mul_comm _ (2 ^ 52)]
    exact_mod_cast Iff.rfl
  have hhalf : (2 : ℚ) ^ e = 2 * 2 ^ (e - 1) := by
    rw [← zpow_one_add₀ two_ne_zero]
    congr 1
    omega
  dsimp only
  split
  · next h =>
    have hlt := htest.1 h
    constructor <;> linarith
  · next h => exact ⟨not_lt.1 fun hlt => h (htest.2 hlt), hhigh⟩

/-- A grid that is finer than there is gives way to the finest one. -/
theorem coarser_bounds (hlow : 2 ^ 52 * 2 ^ e ≤ q) (hhigh : q < 2 ^ 53 * 2 ^ e) :
    -1074 ≤ max e (-1074) ∧ q < 2 ^ 53 * 2 ^ max e (-1074) ∧
      (2 ^ 52 * 2 ^ max e (-1074) ≤ q ∨ max e (-1074) = -1074) := by
  rcases le_total (-1074) e with h | h
  · rw [max_eq_left h]
    exact ⟨h, hhigh, .inl hlow⟩
  · rw [max_eq_right h]
    refine ⟨le_refl _, hhigh.trans_le ?_, .inr rfl⟩
    exact mul_le_mul_of_nonneg_left (zpow_le_zpow_right₀ one_le_two h) (by positivity)

/-- **The grid of a quotient** leaves it no more than 53 bits, and no fewer unless it is the finest
grid. -/
theorem scaleFor_spec (hnum : num ≠ 0) (hden : den ≠ 0) :
    -1074 ≤ scaleFor num den ∧ (num / den : ℚ) < 2 ^ 53 * 2 ^ scaleFor num den ∧
      (2 ^ 52 * 2 ^ scaleFor num den ≤ (num / den : ℚ) ∨ scaleFor num den = -1074) := by
  obtain ⟨hlow, hhigh⟩ := guess_bounds hnum hden
  obtain ⟨hlow, hhigh⟩ := finer_bounds (Nat.pos_of_ne_zero hden) hlow hhigh
  exact coarser_bounds hlow hhigh

/-! ## On the grid -/

/-- The quotient `q` in units of the grid `2 ^ e`, rounded to `m` of them. -/
structure OnGrid (q : ℚ) (e : ℤ) (m : ℕ) : Prop where
  nonneg : 0 ≤ q
  /-- No grid is finer than that of the smallest double. -/
  finest : -1074 ≤ e
  lt : q < 2 ^ 53 * 2 ^ e
  le : 2 ^ 52 * 2 ^ e ≤ q ∨ e = -1074
  /-- Of the two multiples of the grid next to `q` it is the nearer one, or else the even one. -/
  le_iff (n : ℕ) : m ≤ n ↔
    q < ((n : ℚ) + 1 / 2) * 2 ^ e ∨ q = ((n : ℚ) + 1 / 2) * 2 ^ e ∧ Even n

theorem onGrid_zero : OnGrid 0 (-1074) 0 where
  nonneg := le_refl _
  finest := le_refl _
  lt := mul_pos (by norm_num) (zpow_pos two_pos _)
  le := .inr rfl
  le_iff n := iff_of_true (Nat.zero_le n) (.inl (mul_pos (by positivity) (zpow_pos two_pos _)))

/-- The nearest multiple of a grid, as a quotient of naturals finds it. -/
theorem divNearestEven_grid_le_iff (num : ℕ) (hden : 0 < den) (e : ℤ) (n : ℕ) :
    divNearestEven (num * power 2 (-e)) (den * power 2 e) ≤ n ↔
      (num / den : ℚ) < ((n : ℚ) + 1 / 2) * 2 ^ e ∨
        (num / den : ℚ) = ((n : ℚ) + 1 / 2) * 2 ^ e ∧ Even n := by
  have hpos := Nat.mul_pos hden (power_pos e)
  have hposq : (0 : ℚ) < (den * power 2 e : ℕ) := Nat.cast_pos.2 hpos
  rw [divNearestEven_le_iff hpos, ← div_lt_iff₀ (zpow_pos two_pos e),
    ← div_eq_iff (zpow_pos two_pos e).ne', div_two_zpow_eq, div_lt_iff₀ hposq, div_eq_iff hposq.ne']
  generalize num * power 2 (-e) = a
  generalize den * power 2 e = b
  have hlt : 2 * a < (2 * n + 1) * b ↔ (a : ℚ) < (n + 1 / 2) * b := by
    rw [← Nat.cast_lt (α := ℚ)]
    push_cast
    constructor <;> intro h <;> linarith
  have heq : 2 * a = (2 * n + 1) * b ↔ (a : ℚ) = (n + 1 / 2) * b := by
    rw [← Nat.cast_inj (R := ℚ)]
    push_cast
    constructor <;> intro h <;> linarith
  rw [hlt, heq]

theorem onGrid_scaleFor (hnum : num ≠ 0) (hden : den ≠ 0) :
    OnGrid (num / den) (scaleFor num den)
      (divNearestEven (num * power 2 (-scaleFor num den)) (den * power 2 (scaleFor num den))) := by
  obtain ⟨hfinest, hlt, hle⟩ := scaleFor_spec hnum hden
  exact ⟨by positivity, hfinest, hlt, hle,
    divNearestEven_grid_le_iff num (Nat.pos_of_ne_zero hden) _⟩

namespace OnGrid

variable (h : OnGrid q e m)
include h

theorem le_half_above : q ≤ ((m : ℚ) + 1 / 2) * 2 ^ e :=
  ((h.le_iff m).1 (Nat.le_refl m)).elim le_of_lt fun h => h.1.le

theorem half_above_le (hn : n < m) : ((n : ℚ) + 1 / 2) * 2 ^ e ≤ q :=
  not_lt.1 fun hq => Nat.not_le.2 hn ((h.le_iff n).2 (.inl hq))

theorem le_of_le_mul (hq : q ≤ n * 2 ^ e) : m ≤ n := by
  refine (h.le_iff n).2 (.inl (hq.trans_lt ?_))
  have hunit : (0 : ℚ) < 2 ^ e := zpow_pos two_pos e
  linarith

theorem le_of_mul_le (hq : n * 2 ^ e ≤ q) : n ≤ m := by
  by_contra hlt
  have hunit : (0 : ℚ) < 2 ^ e := zpow_pos two_pos e
  have hn : (m : ℚ) + 1 ≤ n := by exact_mod_cast Nat.not_le.1 hlt
  have habove := h.le_half_above
  nlinarith

/-- The error is half a unit of the grid. -/
theorem abs_sub_le : |(m : ℚ) * 2 ^ e - q| ≤ 2 ^ e / 2 := by
  have hunit : (0 : ℚ) < 2 ^ e := zpow_pos two_pos e
  have habove := h.le_half_above
  rw [abs_le]
  refine ⟨by linarith, ?_⟩
  cases m with
  | zero =>
    have hq := h.nonneg
    rw [Nat.cast_zero, zero_mul]
    linarith
  | succ n =>
    have hbelow := h.half_above_le (Nat.lt_succ_self n)
    push_cast
    linarith

/-- Above the smallest normal double the error is one part in `2 ^ 53`. -/
theorem abs_sub_le_div (hq : 2 ^ (-1022 : ℤ) ≤ q) : |(m : ℚ) * 2 ^ e - q| ≤ q / 2 ^ 53 := by
  refine h.abs_sub_le.trans ?_
  have hle : 2 ^ 52 * 2 ^ e ≤ q := by
    refine h.le.elim id fun he => ?_
    rw [he, two_pow_mul_two_zpow]
    exact hq
  rw [div_le_div_iff₀ two_pos (by positivity)]
  linarith

/-- The units have 53 bits, or one more if all of them are rounded up. -/
theorem le_two_pow : m ≤ 2 ^ 53 :=
  h.le_of_le_mul (by exact_mod_cast h.lt.le)

/-- They have no fewer unless the grid is the finest one. -/
theorem two_pow_le : 2 ^ 52 ≤ m ∨ e = -1074 :=
  h.le.imp_left fun hle => h.le_of_mul_le (by exact_mod_cast hle)

end OnGrid

/-! ## The double -/

/-- The bits of `m` units of a grid reach those of infinity where their magnitude does. -/
theorem mul_two_zpow_le {k : ℕ} (hm : m ≤ 2 ^ 53) (hk : 2 ^ 52 ≤ m ∨ k = 0)
    (h : k * 2 ^ 52 + m ≤ infinityBits) : (m : ℚ) * 2 ^ ((k : ℤ) - 1074) ≤ 2 ^ (1024 : ℤ) := by
  unfold infinityBits at h
  have htop : ∀ {n : ℕ} {j : ℤ}, m ≤ 2 ^ n → (k : ℤ) - 1074 ≤ j → n + j ≤ 1024 →
      (m : ℚ) * 2 ^ ((k : ℤ) - 1074) ≤ 2 ^ (1024 : ℤ) := by
    intro n j hm hk hj
    have hm' : (m : ℚ) ≤ 2 ^ n := by exact_mod_cast hm
    calc (m : ℚ) * 2 ^ ((k : ℤ) - 1074) ≤ 2 ^ n * 2 ^ j :=
          mul_le_mul hm' (zpow_le_zpow_right₀ one_le_two hk) (by positivity) (by positivity)
      _ = 2 ^ (n + j) := two_pow_mul_two_zpow n j
      _ ≤ 2 ^ (1024 : ℤ) := zpow_le_zpow_right₀ one_le_two hj
  rcases Nat.lt_or_ge k 2046 with hlt | hge
  · exact htop (j := 971) hm (by omega) (by norm_num)
  · exact htop (n := 52) (j := 972) (by omega) (by omega) (by norm_num)

theorem le_mul_two_zpow {k : ℕ} (hm : m ≤ 2 ^ 53) (hk : 2 ^ 52 ≤ m ∨ k = 0)
    (h : infinityBits ≤ k * 2 ^ 52 + m) : 2 ^ (1024 : ℤ) ≤ (m : ℚ) * 2 ^ ((k : ℤ) - 1074) := by
  unfold infinityBits at h
  have htop : ∀ {n : ℕ} {j : ℤ}, 2 ^ n ≤ m → j ≤ (k : ℤ) - 1074 → 1024 = n + j →
      2 ^ (1024 : ℤ) ≤ (m : ℚ) * 2 ^ ((k : ℤ) - 1074) := by
    intro n j hm hk hj
    have hm' : (2 : ℚ) ^ n ≤ m := by exact_mod_cast hm
    rw [hj, ← two_pow_mul_two_zpow n j]
    exact mul_le_mul hm' (zpow_le_zpow_right₀ one_le_two hk) (by positivity) (Nat.cast_nonneg m)
  rcases Nat.lt_or_ge k 2046 with hlt | hge
  · exact htop (n := 53) (j := 971) (by omega) (by omega) (by norm_num)
  · exact htop (n := 52) (j := 972) (by omega) (by omega) (by norm_num)

/-- The double `x` is what the quotient `q` rounds to: `m` units of the grid `2 ^ e`, or infinity if
that is too large. -/
structure Rounds (q : ℚ) (x : Binary64) (e : ℤ) (m : ℕ) : Prop extends OnGrid q e m where
  isUnsigned : x.IsUnsigned
  magnitude_eq : x.magnitude = min ((m : ℚ) * 2 ^ e) (2 ^ (1024 : ℤ))

theorem rounds_zero : Rounds 0 (zero false) (-1074) 0 where
  toOnGrid := onGrid_zero
  isUnsigned := isUnsigned_withSign (Nat.zero_le _)
  magnitude_eq := by
    rw [magnitude_zero, Nat.cast_zero, zero_mul, min_eq_left (zpow_nonneg zero_le_two _)]

/-- **A quotient of naturals is rounded to the nearest double.** -/
theorem exists_rounds (num : ℕ) (hden : den ≠ 0) :
    ∃ e m, Rounds (num / den) (roundRatio false num den) e m := by
  rcases Nat.eq_zero_or_pos num with rfl | hnum
  · rw [Nat.cast_zero, zero_div]
    exact ⟨_, _, rounds_zero⟩
  have h := onGrid_scaleFor hnum.ne' hden
  rw [roundRatio, if_neg hnum.ne']
  dsimp only
  generalize scaleFor num den = e at *
  generalize divNearestEven (num * power 2 (-e)) (den * power 2 e) = m at *
  obtain ⟨k, hk⟩ := Int.eq_ofNat_of_zero_le (by have hfinest := h.finest; omega : 0 ≤ e + 1074)
  obtain rfl : e = k - 1074 := by omega
  have hm := h.le_two_pow
  have hnormal : 2 ^ 52 ≤ m ∨ k = 0 := h.two_pow_le.imp_right fun he => by omega
  rw [hk, Int.toNat_natCast, Nat.shiftLeft_eq, Nat.shiftLeft_eq]
  split
  · next hlt =>
    refine ⟨_, m, h, isUnsigned_withSign hlt.le, ?_⟩
    rw [magnitude_withSign hm hnormal hlt.le, min_eq_left (mul_two_zpow_le hm hnormal hlt.le)]
  · next hle =>
    refine ⟨_, m, h, isUnsigned_withSign (Nat.le_refl _), ?_⟩
    rw [magnitude_infinity, min_eq_right (le_mul_two_zpow hm hnormal (not_lt.1 hle))]

/-! ## Rounding and doubles -/

/-- The rationals that are the magnitude of a double, that of infinity included. -/
def IsDouble (t : ℚ) : Prop :=
  ∃ (n : ℕ) (k : ℤ), n ≤ 2 ^ 53 ∧ -1074 ≤ k ∧ t = n * 2 ^ k ∧ t ≤ 2 ^ (1024 : ℤ)

theorem isDouble_natCast (hn : n ≤ 2 ^ 53) : IsDouble n := by
  refine ⟨n, 0, hn, by norm_num, by rw [zpow_zero, mul_one], ?_⟩
  have hle : (n : ℚ) ≤ 2 ^ (53 : ℕ) := by exact_mod_cast hn
  exact hle.trans (zpow_le_zpow_right₀ (m := (53 : ℕ)) one_le_two (by norm_num))

theorem isDouble_two_zpow {k : ℤ} (hlow : -1074 ≤ k) (hhigh : k ≤ 1024) : IsDouble (2 ^ k) :=
  ⟨1, k, by norm_num, hlow, by rw [Nat.cast_one, one_mul], zpow_le_zpow_right₀ one_le_two hhigh⟩

theorem IsDouble.le_infinity {t : ℚ} (ht : IsDouble t) : t ≤ 2 ^ (1024 : ℤ) := by
  obtain ⟨n, k, -, -, -, hle⟩ := ht
  exact hle

/-- A double lies on a grid, or is below the numbers of 53 bits on it. -/
theorem IsDouble.on_grid {t : ℚ} (ht : IsDouble t) (e : ℤ) :
    (∃ n : ℕ, t = n * 2 ^ e) ∨ t ≤ 2 ^ 52 * 2 ^ e ∧ e ≠ -1074 := by
  obtain ⟨n, k, hn, hk, rfl, -⟩ := ht
  rcases le_or_gt e k with hek | hke
  · obtain ⟨j, rfl⟩ := Int.le.dest hek
    refine .inl ⟨n * 2 ^ j, ?_⟩
    rw [add_comm, ← two_pow_mul_two_zpow]
    push_cast
    ring
  · refine .inr ⟨?_, by omega⟩
    have hn' : (n : ℚ) ≤ 2 ^ 53 := by exact_mod_cast hn
    calc (n : ℚ) * 2 ^ k ≤ 2 ^ 53 * 2 ^ (e - 1) :=
          mul_le_mul hn' (zpow_le_zpow_right₀ one_le_two (by omega)) (by positivity) (by positivity)
      _ = 2 ^ 52 * 2 ^ e := by
          rw [two_pow_mul_two_zpow, two_pow_mul_two_zpow]
          congr 1
          push_cast
          ring

namespace OnGrid

variable {t : ℚ} (h : OnGrid q e m)
include h

theorem le_mul_of_isDouble (ht : IsDouble t) (htq : t ≤ q) : t ≤ m * 2 ^ e := by
  have hunit : (0 : ℚ) < 2 ^ e := zpow_pos two_pos e
  have hgrid : ∀ {n : ℕ}, (n : ℚ) * 2 ^ e ≤ q → (n : ℚ) * 2 ^ e ≤ m * 2 ^ e := fun hn => by
    have hm := Nat.cast_le (α := ℚ).2 (h.le_of_mul_le hn)
    gcongr
  rcases ht.on_grid e with ⟨n, rfl⟩ | ⟨hsmall, he⟩
  · exact hgrid htq
  · have hnormal := hgrid (n := 2 ^ 52) (by exact_mod_cast h.le.resolve_right he)
    exact hsmall.trans (by exact_mod_cast hnormal)

theorem mul_le_of_isDouble (ht : IsDouble t) (hqt : q ≤ t) : m * 2 ^ e ≤ t := by
  have hunit : (0 : ℚ) < 2 ^ e := zpow_pos two_pos e
  have hgrid : ∀ {n : ℕ}, q ≤ n * 2 ^ e → (m : ℚ) * 2 ^ e ≤ n * 2 ^ e := fun hn => by
    have hm := Nat.cast_le (α := ℚ).2 (h.le_of_le_mul hn)
    gcongr
  rcases ht.on_grid e with ⟨n, rfl⟩ | ⟨hsmall, he⟩
  · exact hgrid hqt
  · -- the quotient has 53 bits and is not above a number that has no more: it is a power of two
    have hle := h.le.resolve_right he
    have hnormal := hgrid (n := 2 ^ 52) (by exact_mod_cast hqt.trans hsmall)
    push_cast at hnormal
    exact hnormal.trans (hle.trans hqt)

end OnGrid

/-- The double that a quotient rounds to. -/
def RoundsTo (q : ℚ) (x : Binary64) : Prop := ∃ e m, Rounds q x e m

namespace RoundsTo

variable {t : ℚ} {j : ℤ} (h : RoundsTo q x)
include h

theorem nonneg : 0 ≤ q := by
  obtain ⟨e, m, h⟩ := h
  exact h.nonneg

theorem isUnsigned : x.IsUnsigned := by
  obtain ⟨e, m, h⟩ := h
  exact h.isUnsigned

/-- Rounding does not go below a double. -/
theorem le_magnitude (ht : IsDouble t) (htq : t ≤ q) : t ≤ x.magnitude := by
  obtain ⟨e, m, h⟩ := h
  rw [h.magnitude_eq]
  exact le_min (h.le_mul_of_isDouble ht htq) ht.le_infinity

/-- Rounding does not go above a double. -/
theorem magnitude_le (ht : IsDouble t) (hqt : q ≤ t) : x.magnitude ≤ t := by
  obtain ⟨e, m, h⟩ := h
  rw [h.magnitude_eq]
  exact (min_le_left _ _).trans (h.mul_le_of_isDouble ht hqt)

theorem magnitude_eq (hq : IsDouble q) : x.magnitude = q :=
  le_antisymm (h.magnitude_le hq (le_refl q)) (h.le_magnitude hq (le_refl q))

/-- **The error of rounding** is one part in `2 ^ 53` at most, from the smallest normal double on. -/
theorem abs_sub_le (hlow : 2 ^ (-1022 : ℤ) ≤ q) (hhigh : q ≤ 2 ^ (1023 : ℤ)) :
    |x.magnitude - q| ≤ q / 2 ^ 53 := by
  have hdouble : IsDouble (2 ^ (1023 : ℤ)) := isDouble_two_zpow (by norm_num) (by norm_num)
  obtain ⟨e, m, h⟩ := h
  rw [h.magnitude_eq, min_eq_left]
  · exact h.abs_sub_le_div hlow
  · refine (h.mul_le_of_isDouble hdouble hhigh).trans ?_
    exact zpow_le_zpow_right₀ one_le_two (by norm_num)

end RoundsTo

/-! ## Just below a power of two -/

/-- The grid of a quotient, from the power of two below it. -/
theorem OnGrid.scale_eq {j : ℤ} (h : OnGrid q e m) (hj : -1074 ≤ j) (hlow : 2 ^ 52 * 2 ^ j ≤ q)
    (hhigh : q < 2 ^ 53 * 2 ^ j) : e = j := by
  have hpow : ∀ {a b : ℤ}, a < b → (2 : ℚ) ^ 53 * 2 ^ a ≤ 2 ^ 52 * 2 ^ b := fun hab => by
    rw [two_pow_mul_two_zpow, two_pow_mul_two_zpow]
    exact zpow_le_zpow_right₀ one_le_two (by push_cast; omega)
  rcases lt_trichotomy e j with hlt | heq | hgt
  · exact absurd (hlow.trans_lt (h.lt.trans_le (hpow hlt))) (lt_irrefl _)
  · exact heq
  · have hle := h.le.resolve_right (by omega)
    exact absurd (hhigh.trans_le ((hpow hgt).trans hle)) (lt_irrefl _)

theorem two_pow_mul_le_infinity {j : ℤ} (hj : j ≤ 971) :
    (2 : ℚ) ^ 53 * 2 ^ j ≤ 2 ^ (1024 : ℤ) := by
  rw [two_pow_mul_two_zpow]
  exact zpow_le_zpow_right₀ one_le_two (by push_cast; omega)

namespace RoundsTo

variable {j : ℤ}

/-- From half a unit below a power of two on, a quotient is rounded up to it. -/
theorem two_pow_le_magnitude (h : RoundsTo q x) (hj : -1074 ≤ j) (hj' : j ≤ 971)
    (hq : (2 ^ 53 - 1 / 2) * 2 ^ j ≤ q) : 2 ^ 53 * 2 ^ j ≤ x.magnitude := by
  have hunit : (0 : ℚ) < 2 ^ j := zpow_pos two_pos j
  rcases le_or_gt (2 ^ 53 * 2 ^ j) q with hle | hlt
  · refine h.le_magnitude ?_ hle
    rw [two_pow_mul_two_zpow]
    exact isDouble_two_zpow (by push_cast; omega) (by push_cast; omega)
  · obtain ⟨e, m, h⟩ := h
    obtain rfl := h.scale_eq hj (by linarith) hlt
    -- the largest number of 53 bits is odd, so that a tie goes up
    have hm : 2 ^ 53 ≤ m := Nat.lt_of_not_le fun hm => by
      rcases (h.le_iff (2 ^ 53 - 1)).1 hm with hq' | ⟨-, heven⟩
      · norm_num at hq hq'
        linarith
      · exact absurd heven (by decide)
    have hm' : (2 : ℚ) ^ 53 ≤ m := by exact_mod_cast hm
    rw [h.magnitude_eq]
    exact le_min (by gcongr) (two_pow_mul_le_infinity hj')

/-- Below that, a quotient is rounded to a double below the power of two. -/
theorem magnitude_le_pred (h : RoundsTo q x) (hj : -1074 ≤ j) (hj' : j ≤ 971)
    (hq : q < (2 ^ 53 - 1 / 2) * 2 ^ j) : x.magnitude ≤ (2 ^ 53 - 1) * 2 ^ j := by
  have hunit : (0 : ℚ) < 2 ^ j := zpow_pos two_pos j
  rcases le_or_gt q ((2 ^ 53 - 1) * 2 ^ j) with hle | hlt
  · refine h.magnitude_le ⟨2 ^ 53 - 1, j, by norm_num, hj, by norm_num, ?_⟩ hle
    exact (mul_le_mul_of_nonneg_right (by norm_num) hunit.le).trans (two_pow_mul_le_infinity hj')
  · obtain ⟨e, m, h⟩ := h
    obtain rfl := h.scale_eq hj (by linarith) (by linarith)
    have hm : m ≤ 2 ^ 53 - 1 := (h.le_iff _).2 (.inl (by norm_num at hq ⊢; linarith))
    have hm' : (m : ℚ) ≤ 2 ^ 53 - 1 := by
      have hm := Nat.cast_le (α := ℚ).2 hm
      norm_num at hm ⊢
      exact hm
    rw [h.magnitude_eq]
    exact (min_le_left _ _).trans (by gcongr)

end RoundsTo

/-! ## Operations -/

theorem roundsTo_ofNat (n : ℕ) : RoundsTo n (ofNat n) := by
  have h := exists_rounds n one_ne_zero
  rw [Nat.cast_one, div_one] at h
  exact h

theorem magnitude_ofNat (hn : n ≤ 2 ^ 53) : (ofNat n).magnitude = n :=
  (roundsTo_ofNat n).magnitude_eq (isDouble_natCast hn)

/-- **The product is rounded once.** -/
theorem roundsTo_mul (hx : x.IsUnsigned) (hfx : x.isFinite = true) (hy : y.IsUnsigned)
    (hfy : y.isFinite = true) : RoundsTo (x.magnitude * y.magnitude) (x.mul y) := by
  have hvalue : x.magnitude * y.magnitude =
      (x.significand * y.significand * power 2 (x.scale + y.scale) : ℕ) /
        (power 2 (-(x.scale + y.scale)) : ℕ) := by
    rw [magnitude, magnitude, mul_mul_mul_comm, ← zpow_add₀ two_ne_zero, two_zpow_eq]
    push_cast
    ring
  have hmul : x.mul y = roundRatio false
      (x.significand * y.significand * power 2 (x.scale + y.scale))
      (power 2 (-(x.scale + y.scale))) := by
    simp [mul, negative_of_isUnsigned hx, negative_of_isUnsigned hy, isNaN_of_isUnsigned hx,
      isNaN_of_isUnsigned hy, hfx, hfy]
  rw [hvalue, hmul]
  exact exists_rounds _ (power_pos _).ne'

/-- The product with a negative zero is one. -/
theorem mul_of_negative_zero (hsign : x.negative = true) (hfx : x.isFinite = true)
    (hzero : x.significand = 0) (hy : y.IsUnsigned) (hfy : y.isFinite = true) :
    x.mul y = zero true := by
  have hnegative : (x.negative != y.negative) = true := by
    rw [hsign, negative_of_isUnsigned hy]
    rfl
  simp [mul, hnegative, isNaN_of_isFinite hfx, isNaN_of_isFinite hfy, hfx, hfy, hzero, roundRatio]

end Binary64

end CandyDrop
