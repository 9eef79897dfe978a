import Mathlib.Algebra.Order.Field.Power
import Mathlib.Data.Rat.Cast.Order
import Mathlib.Tactic.FieldSimp
import Mathlib.Tactic.Linarith
import Mathlib.Tactic.Positivity
import Taxonomy.Binary64.Shortest

/-!
# Shortest decimals tell doubles apart

Around a nonzero double lies the interval of the numbers of which it is the nearest double. The
intervals of two doubles have no number in common, and the shortest decimal of a double is a number
of its interval, so doubles of different magnitude have different shortest decimals.
-/

namespace Taxonomy.Binary64

variable {x y : Binary64} {q : ℚ} {tie : Tie} {power : Int} {digits : Nat}

/-- How far the interval of a double reaches down, in quarters of the last place: two, but one at a
power of two, below which doubles are twice as dense. -/
def below (x : Binary64) : Nat :=
  if x.significand = Nat.pow 2 52 ∧ -1074 < x.exponent then 1 else 2

/-- The lower end of the interval. -/
def low (x : Binary64) : ℚ :=
  (4 * x.significand - x.below : Nat) * 2 ^ (x.exponent - 2)

/-- The upper end of the interval. -/
def high (x : Binary64) : ℚ :=
  (4 * x.significand + 2 : Nat) * 2 ^ (x.exponent - 2)

/-- The number is not below the interval, to which its ends belong if the significand is even. -/
def AboveLow (x : Binary64) (q : ℚ) : Prop :=
  x.low < q ∨ x.significand % 2 = 0 ∧ x.low = q

/-- The number is not above the interval. -/
def BelowHigh (x : Binary64) (q : ℚ) : Prop :=
  q < x.high ∨ x.significand % 2 = 0 ∧ q = x.high

/-- The number is in the interval. -/
structure Covers (x : Binary64) (q : ℚ) : Prop where
  aboveLow : x.AboveLow q
  belowHigh : x.BelowHigh q

/-- The magnitude of a double. -/
def magnitude (x : Binary64) : ℚ :=
  (4 * x.significand : Nat) * 2 ^ (x.exponent - 2)

theorem magnitude_lt_high (x : Binary64) : x.magnitude < x.high := by
  have hunit : (0 : ℚ) < 2 ^ (x.exponent - 2) := by positivity
  rw [magnitude, high, mul_lt_mul_iff_left₀ hunit, Nat.cast_lt]
  omega

theorem below_cases (x : Binary64) : x.below = 1 ∨ x.below = 2 := by
  rw [below]
  split
  · exact .inl rfl
  · exact .inr rfl

theorem low_lt_magnitude (hx : x.significand ≠ 0) : x.low < x.magnitude := by
  have hunit : (0 : ℚ) < 2 ^ (x.exponent - 2) := by positivity
  have hbelow := x.below_cases
  rw [magnitude, low, mul_lt_mul_iff_left₀ hunit, Nat.cast_lt]
  omega

/-- The interval of a nonzero double is above zero. -/
theorem Covers.pos (h : x.Covers q) (hx : x.significand ≠ 0) : 0 < q := by
  have hlow : 0 < x.low := by
    have hunit : (0 : ℚ) < 2 ^ (x.exponent - 2) := by positivity
    have hbelow := x.below_cases
    have hquarters : 0 < 4 * x.significand - x.below := by omega
    exact mul_pos (Nat.cast_pos.mpr hquarters) hunit
  rcases h.aboveLow with hlt | ⟨-, heq⟩
  · exact hlow.trans hlt
  · exact heq ▸ hlow

/-! ### The grid of a power of ten -/

theorem quotientOfPower_eq (n : Nat) (e : Int) :
    quotientOfPower n e = (n * 2 ^ e.toNat, 2 ^ (-e).toNat) := by
  by_cases he : 0 ≤ e
  · have hneg : (-e).toNat = 0 := by omega
    rw [quotientOfPower, if_pos he, hneg, pow_zero, Nat.pow_eq]
  · have hpos : e.toNat = 0 := by omega
    rw [quotientOfPower, if_neg he, hpos, pow_zero, mul_one, Nat.pow_eq]

theorem ratioOnGrid_eq (n : Nat) (two ten : Int) : ratioOnGrid n two ten =
    (n * (2 ^ two.toNat * 10 ^ (-ten).toNat), 2 ^ (-two).toNat * 10 ^ ten.toNat) := by
  rw [ratioOnGrid, quotientOfPower_eq]
  by_cases hten : 0 ≤ ten
  · have hneg : (-ten).toNat = 0 := by omega
    simp only [hten, if_true, hneg, pow_zero, mul_one, Nat.pow_eq]
  · have hpos : ten.toNat = 0 := by omega
    simp only [hten, if_false, hpos, pow_zero, mul_one, Nat.pow_eq, mul_assoc]

theorem zpow_eq_div (b : ℚ) (hb : b ≠ 0) (e : Int) : b ^ e = b ^ e.toNat / b ^ (-e).toNat := by
  rw [← zpow_natCast, ← zpow_natCast, ← zpow_sub₀ hb]
  congr 1
  omega

/-- Multiples of a power of two and of a power of ten are compared as whole numbers. -/
theorem exists_unit (two ten : Int) : ∃ (a b : Nat) (unit : ℚ), 0 < b ∧ 0 < unit ∧
    (∀ n, ratioOnGrid n two ten = (n * a, b)) ∧
    (∀ n : Nat, (n : ℚ) * 2 ^ two = (n * a : Nat) * unit) ∧
    ∀ n : Nat, (n : ℚ) * 10 ^ ten = (n * b : Nat) * unit := by
  refine ⟨_, _, 1 / (2 ^ (-two).toNat * 10 ^ (-ten).toNat), by positivity, by positivity,
    fun n => ratioOnGrid_eq n two ten, fun n => ?_, fun n => ?_⟩
  · rw [zpow_eq_div 2 (by norm_num)]
    push_cast
    field_simp
  · rw [zpow_eq_div 10 (by norm_num)]
    push_cast
    field_simp

/-- The neighbours of a double on a grid are `k` and `k + 1`. The one below is its grid point if it
is not below the interval, or the one above if it is not above the interval. -/
theorem exists_neighbours (tie : Tie) (x : Binary64) (power : Int) : ∃ k : Nat,
    k * 10 ^ power ≤ x.magnitude ∧ x.magnitude < (k + 1 : Nat) * 10 ^ power ∧
    ((gridPoint? tie x power = none ∧ ¬x.AboveLow (k * 10 ^ power) ∧
        ¬x.BelowHigh ((k + 1 : Nat) * 10 ^ power)) ∨
      (gridPoint? tie x power = some k ∧ x.AboveLow (k * 10 ^ power)) ∨
      (gridPoint? tie x power = some (k + 1) ∧ x.BelowHigh ((k + 1 : Nat) * 10 ^ power))) := by
  obtain ⟨a, b, unit, hb, hunit, hgrid, htwo, hten⟩ := exists_unit (x.exponent - 2) power
  obtain ⟨k, hk⟩ : ∃ k, k = 4 * x.significand * a / b := ⟨_, rfl⟩
  have hlow : (decide ((4 * x.significand - x.below) * a < k * b) ||
      (x.significand % 2 == 0 && (4 * x.significand - x.below) * a == k * b)) = true ↔
      x.AboveLow (k * 10 ^ power) := by
    rw [AboveLow, low, htwo, hten, mul_lt_mul_iff_left₀ hunit, mul_left_inj' hunit.ne',
      Nat.cast_lt, Nat.cast_inj]
    simp
  have hhigh : (decide ((k + 1) * b < (4 * x.significand + 2) * a) ||
      (x.significand % 2 == 0 && (k + 1) * b == (4 * x.significand + 2) * a)) = true ↔
      x.BelowHigh ((k + 1 : Nat) * 10 ^ power) := by
    rw [BelowHigh, high, htwo, hten, mul_lt_mul_iff_left₀ hunit, mul_left_inj' hunit.ne',
      Nat.cast_lt, Nat.cast_inj]
    simp
  have hbelow : (if x.significand = Nat.pow 2 52 ∧ -1074 < x.exponent then 1 else 2) = x.below := rfl
  refine ⟨k, ?_, ?_, ?_⟩
  · rw [magnitude, htwo, hten, mul_le_mul_iff_left₀ hunit, Nat.cast_le, hk]
    exact Nat.div_mul_le_self _ _
  · rw [magnitude, htwo, hten, mul_lt_mul_iff_left₀ hunit, Nat.cast_lt, hk, Nat.mul_comm _ b]
    exact Nat.lt_mul_div_succ _ hb
  · rw [← hlow, ← hhigh]
    simp only [gridPoint?, hgrid, ← hk, hbelow]
    generalize (decide ((4 * x.significand - x.below) * a < k * b) ||
      (x.significand % 2 == 0 && (4 * x.significand - x.below) * a == k * b)) = lowFits
    generalize (decide ((k + 1) * b < (4 * x.significand + 2) * a) ||
      (x.significand % 2 == 0 && (k + 1) * b == (4 * x.significand + 2) * a)) = highFits
    cases lowFits with
    | false => cases highFits <;> simp
    | true =>
        cases highFits with
        | false => simp
        | true =>
            -- Both neighbours are in the interval, and the nearer one is taken.
            simp only [Bool.and_self, if_true]
            split
            · simp
            · split
              · simp
              · cases tie with
                | up => simp
                | toEven => by_cases heven : k % 2 = 0 <;> simp [heven]

/-- A grid point is a number of the interval. -/
theorem covers_of_gridPoint? (hx : x.significand ≠ 0)
    (h : gridPoint? tie x power = some digits) : x.Covers (digits * 10 ^ power) := by
  obtain ⟨k, hbelow, habove, hcases⟩ := exists_neighbours tie x power
  rcases hcases with ⟨hnone, -, -⟩ | ⟨hsome, hlow⟩ | ⟨hsome, hhigh⟩
  · rw [hnone] at h
    cases h
  · obtain rfl : k = digits := Option.some.inj (hsome.symm.trans h)
    exact ⟨hlow, .inl (hbelow.trans_lt x.magnitude_lt_high)⟩
  · obtain rfl : k + 1 = digits := Option.some.inj (hsome.symm.trans h)
    exact ⟨.inl ((low_lt_magnitude hx).trans habove), hhigh⟩

/-- A grid that is finer than the interval is wide has a point in it. -/
theorem gridPoint?_ne_none (hwide : x.low + 10 ^ power < x.high) :
    gridPoint? tie x power ≠ none := by
  intro hnone
  obtain ⟨k, -, -, hcases⟩ := exists_neighbours tie x power
  rcases hcases with ⟨-, hlow, hhigh⟩ | ⟨hsome, -⟩ | ⟨hsome, -⟩
  · have hlow : k * 10 ^ power ≤ x.low := not_lt.mp fun hlt => hlow (.inl hlt)
    have hhigh : x.high ≤ (k + 1 : Nat) * 10 ^ power := not_lt.mp fun hlt => hhigh (.inl hlt)
    push_cast at hhigh
    linarith
  · rw [hnone] at hsome
    cases hsome
  · rw [hnone] at hsome
    cases hsome

/-! ### The shortest decimal -/

theorem zpow_lt_zpow_least : (10 : ℚ) ^ (-324 : Int) < 2 ^ (-1074 : Int) := by
  have hpow : (2 : ℚ) ^ 1074 < 10 ^ 324 := by
    calc (2 : ℚ) ^ 1074 = (2 ^ 179) ^ 6 := pow_mul 2 179 6
      _ < (10 ^ 54) ^ 6 := pow_lt_pow_left₀ (by norm_num) (by positivity) (by norm_num)
      _ = 10 ^ 324 := (pow_mul 10 54 6).symm
  rw [zpow_neg, zpow_neg, zpow_ofNat, zpow_ofNat]
  exact inv_strictAnti₀ (by positivity) hpow

/-- The interval is at least as wide as the last place of the least doubles. -/
theorem zpow_least_le_width (x : Binary64) :
    (2 : ℚ) ^ (-1074 : Int) ≤ (x.below + 2 : Nat) * 2 ^ (x.exponent - 2) := by
  obtain ⟨-, hleast, -, -⟩ := x.canonical
  have hscale (k : Nat) (h : -1074 ≤ x.exponent - 2 + k) :
      (2 : ℚ) ^ (-1074 : Int) ≤ 2 ^ k * 2 ^ (x.exponent - 2) := by
    rw [mul_comm, ← zpow_natCast, ← zpow_add₀ two_ne_zero]
    exact zpow_le_zpow_right₀ one_le_two h
  have hunit : (0 : ℚ) < 2 ^ (x.exponent - 2) := by positivity
  rcases x.below_cases with hone | htwo
  · -- Three quarters of the last place, which is not the least one.
    have hgreater : -1074 < x.exponent := by
      by_contra hnot
      rw [below, if_neg fun h => hnot h.2] at hone
      cases hone
    refine (hscale 1 (by omega)).trans (mul_le_mul_of_nonneg_right ?_ hunit.le)
    rw [hone]
    norm_num
  · refine (hscale 2 (by omega)).trans (mul_le_mul_of_nonneg_right ?_ hunit.le)
    rw [htwo]
    norm_num

/-- The grid of `10 ^ (-324)` is finer than every interval is wide. -/
theorem low_add_lt_high (hx : x.significand ≠ 0) : x.low + 10 ^ (-324 : Int) < x.high := by
  have hsum : x.low + (x.below + 2 : Nat) * 2 ^ (x.exponent - 2) = x.high := by
    have hbelow := x.below_cases
    rw [low, high, ← add_mul, ← Nat.cast_add]
    congr 2
    omega
  have hwidth := x.zpow_least_le_width
  have hfine := zpow_lt_zpow_least
  linarith

/-- The search ends in the interval if the last grid of it has a point there. -/
theorem covers_shortestFrom (hx : x.significand ≠ 0) {steps : Nat}
    (h : gridPoint? tie x (power - steps) ≠ none) :
    x.Covers ((shortestFrom tie x (steps + 1) power).digits *
      10 ^ (shortestFrom tie x (steps + 1) power).power) := by
  induction steps generalizing power with
  | zero =>
      obtain ⟨digits, hdigits⟩ := Option.ne_none_iff_exists'.mp h
      rw [Nat.cast_zero, sub_zero] at hdigits
      simp only [shortestFrom, hdigits]
      exact covers_of_gridPoint? hx hdigits
  | succ steps ih =>
      rw [shortestFrom]
      cases hpoint : gridPoint? tie x power with
      | some digits => exact covers_of_gridPoint? hx hpoint
      | none =>
          apply ih
          rwa [sub_sub, ← Nat.cast_one, ← Nat.cast_add, Nat.add_comm]

/-- The shortest decimal is a number of the interval. -/
theorem covers_shortest (tie : Tie) (hx : x.significand ≠ 0) :
    x.Covers ((shortest tie x).digits * 10 ^ (shortest tie x).power) :=
  covers_shortestFrom hx (gridPoint?_ne_none (low_add_lt_high hx))

/-! ### Intervals of different doubles -/

/-- The double has the smaller magnitude, as far as its parts tell. -/
def Before (x y : Binary64) : Prop :=
  x.exponent < y.exponent ∨ x.exponent = y.exponent ∧ x.significand < y.significand

/-- In quarters of its last place, the interval of a double ends at or below the beginning of the
interval of a greater one. Where they meet, one of the two does not have its end. -/
theorem Before.quarters_le {shift : Nat} (h : x.Before y) (hshift : y.exponent = x.exponent + shift) :
    4 * x.significand + 2 ≤ (4 * y.significand - y.below) * 2 ^ shift ∧
      (4 * x.significand + 2 = (4 * y.significand - y.below) * 2 ^ shift →
        x.significand % 2 = 1 ∨ y.significand % 2 = 1) := by
  obtain ⟨hfits, hleast, -, -⟩ := x.canonical
  obtain ⟨-, -, -, hfull⟩ := y.canonical
  rw [Nat.pow_eq] at hfits hfull
  have hbelow := y.below_cases
  cases shift with
  | zero =>
      have hless : x.significand < y.significand := by
        rcases h with hexponent | ⟨-, hless⟩
        · omega
        · exact hless
      rw [pow_zero, mul_one]
      omega
  | succ shift =>
      have hfull : 2 ^ 52 ≤ y.significand := by omega
      -- The greater double is at a power of two, or it is greater still.
      have hleast : 2 ^ 55 - 2 ≤ (4 * y.significand - y.below) * 2 := by
        by_cases hpower : y.significand = 2 ^ 52
        · have hone : y.below = 1 := if_pos ⟨hpower, by omega⟩
          omega
        · omega
      have hgrows : (4 * y.significand - y.below) * 2 ≤
          (4 * y.significand - y.below) * 2 ^ (shift + 1) :=
        Nat.mul_le_mul_left _ (Nat.le_self_pow (Nat.succ_ne_zero shift) 2)
      omega

/-- No number is in the intervals of two doubles of different magnitude. -/
theorem Before.not_covers (h : x.Before y) (hx : x.Covers q) : ¬y.Covers q := by
  intro hy
  obtain ⟨shift, hshift⟩ : ∃ shift : Nat, y.exponent = x.exponent + shift := by
    refine ⟨(y.exponent - x.exponent).toNat, ?_⟩
    rcases h with hexponent | ⟨hexponent, -⟩ <;> omega
  obtain ⟨hle, hmeet⟩ := h.quarters_le hshift
  have hunit : (0 : ℚ) < 2 ^ (x.exponent - 2) := by positivity
  have hlow : y.low =
      ((4 * y.significand - y.below) * 2 ^ shift : Nat) * (2 : ℚ) ^ (x.exponent - 2) := by
    have hexponent : y.exponent - 2 = shift + (x.exponent - 2) := by omega
    rw [low, hexponent, zpow_add₀ two_ne_zero, zpow_natCast]
    push_cast
    rw [mul_assoc]
  have hends : x.high ≤ y.low := by
    rw [high, hlow, mul_le_mul_iff_left₀ hunit, Nat.cast_le]
    exact hle
  rcases hx.belowHigh with hhigh | ⟨heven, hhigh⟩
  · rcases hy.aboveLow with hlow' | ⟨-, hlow'⟩ <;> linarith
  · rcases hy.aboveLow with hlow' | ⟨heven', hlow'⟩
    · linarith
    · have heq : x.high = y.low := by rw [← hhigh, hlow']
      rw [high, hlow, mul_left_inj' hunit.ne', Nat.cast_inj] at heq
      have hodd := hmeet heq
      omega

/-- Doubles with one shortest decimal have one magnitude. -/
theorem parts_eq_of_shortest (hx : x.significand ≠ 0) (hy : y.significand ≠ 0)
    (h : ((shortest tie x).digits : ℚ) * 10 ^ (shortest tie x).power =
      (shortest tie y).digits * 10 ^ (shortest tie y).power) :
    x.significand = y.significand ∧ x.exponent = y.exponent := by
  have hcoversX := covers_shortest tie hx
  have hcoversY := covers_shortest tie hy
  rw [h] at hcoversX
  by_contra hparts
  have hbefore : x.Before y ∨ y.Before x := by
    rw [Before, Before]
    omega
  rcases hbefore with hbefore | hbefore
  · exact hbefore.not_covers hcoversX hcoversY
  · exact hbefore.not_covers hcoversY hcoversX

end Taxonomy.Binary64
