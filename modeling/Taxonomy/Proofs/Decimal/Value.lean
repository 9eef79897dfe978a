import Mathlib.Algebra.Field.Rat
import Mathlib.Algebra.Order.Field.Basic
import Mathlib.Algebra.Order.Ring.Rat
import Mathlib.Tactic.Positivity
import Taxonomy.Decimal.Basic

/-!
# Decimals as numbers

A decimal denotes a rational number. Comparing decimals is comparing these numbers, and the
two counts of digits that a column limits say how the number lies to the point: the places after it
that the number needs, and the power of ten that its magnitude stays below.
-/

namespace Taxonomy.Decimal

variable {a b d : Decimal} {n : Nat}

/-- The mantissa with its sign. -/
def numerator (d : Decimal) : ℤ :=
  if d.negative then -d.mantissa else d.mantissa

/-- The number that a decimal denotes. -/
def value (d : Decimal) : ℚ :=
  d.numerator / 10 ^ d.scale

theorem natAbs_numerator (d : Decimal) : d.numerator.natAbs = d.mantissa := by
  rw [numerator]
  split <;> omega

theorem abs_value (d : Decimal) : |d.value| = d.mantissa / 10 ^ d.scale := by
  have hpos : (0 : ℚ) < 10 ^ d.scale := by positivity
  rw [value, abs_div, abs_of_pos hpos, ← Int.cast_abs, Int.abs_eq_natAbs, natAbs_numerator,
    Int.cast_natCast]

theorem value_ofNat (n : Nat) (h : n < Nat.pow 2 96) : (ofNat n h).value = n := by
  simp [value, numerator, ofNat]

theorem value_ofInt64 (n : Int64) : (ofInt64 n).value = n.toInt := by
  have hnumerator : (ofInt64 n).numerator = n.toInt := by
    simp only [numerator, ofInt64, decide_eq_true_eq]
    split <;> omega
  have hscale : (ofInt64 n).scale = 0 := rfl
  rw [value, hnumerator, hscale, pow_zero, div_one]

/-- The units of a decimal count its number in steps of `10 ^ (-28)`. -/
theorem units_eq_value (d : Decimal) : (d.units : ℚ) = d.value * 10 ^ 28 := by
  have hunits : d.units = d.numerator * 10 ^ (28 - d.scale) := by
    rw [units, numerator]
    split <;> simp
  have hscale : (10 : ℚ) ^ 28 = 10 ^ (28 - d.scale) * 10 ^ d.scale := by
    rw [← pow_add, Nat.sub_add_cancel d.scale_le]
  have hpos : (10 : ℚ) ^ d.scale ≠ 0 := by positivity
  rw [hunits, value, hscale, mul_comm (10 ^ (28 - d.scale)), ← mul_assoc, div_mul_cancel₀ _ hpos]
  push_cast
  rfl

theorem less_iff : a.less b = true ↔ a.value < b.value := by
  have hpos : (0 : ℚ) < 10 ^ 28 := by positivity
  rw [less, decide_eq_true_eq, ← Int.cast_lt (R := ℚ), units_eq_value, units_eq_value,
    mul_lt_mul_iff_left₀ hpos]

/-- Decimals are the same if they denote one number. -/
theorem same_iff : a.same b = true ↔ a.value = b.value := by
  have hpos : (10 : ℚ) ^ 28 ≠ 0 := by positivity
  rw [same, beq_iff_eq, ← Int.cast_inj (α := ℚ), units_eq_value, units_eq_value,
    mul_left_inj' hpos]

/-- Zeros at the end of the fraction are stripped as long as the number needs at most `n` places. -/
theorem stripZeros_le_iff {mantissa scale : Nat} :
    (stripZeros mantissa scale).2 ≤ n ↔ 10 ^ scale ∣ mantissa * 10 ^ n := by
  induction scale generalizing mantissa with
  | zero => simp [stripZeros]
  | succ scale ih =>
      rw [stripZeros]
      split
      · rename_i hzero
        obtain ⟨k, rfl⟩ := Nat.dvd_of_mod_eq_zero hzero
        rw [Nat.mul_div_cancel_left k (by omega), ih, Nat.pow_succ, Nat.mul_comm (10 ^ scale),
          Nat.mul_assoc, Nat.mul_dvd_mul_iff_left (by omega)]
      · rename_i hdigit
        constructor
        · intro hle
          exact Dvd.dvd.mul_left (Nat.pow_dvd_pow 10 hle) mantissa
        · intro hdvd
          by_contra hlong
          -- Dividing by the `n` places that are kept leaves a last digit that is not zero.
          have hsplit : 10 ^ (scale + 1) = 10 ^ (scale - n) * 10 * 10 ^ n := by
            rw [← Nat.pow_succ, ← Nat.pow_add]
            congr 1
            omega
          rw [hsplit, Nat.mul_dvd_mul_iff_right (by positivity)] at hdvd
          exact hdigit (Nat.mod_eq_zero_of_dvd (Nat.dvd_trans (Nat.dvd_mul_left 10 _) hdvd))

/-- A number needs at most `n` places after the point exactly if it is a whole number of units of
`10 ^ (-n)`. -/
theorem fractionDigits_le_iff : d.fractionDigits ≤ n ↔ ∃ m : ℤ, d.value * 10 ^ n = m := by
  have hpos : (10 : ℚ) ^ d.scale ≠ 0 := by positivity
  have hwhole : (∃ m : ℤ, d.value * 10 ^ n = m) ↔ (10 ^ d.scale : ℤ) ∣ d.numerator * 10 ^ n := by
    rw [dvd_iff_exists_eq_mul_left]
    refine exists_congr fun m => ?_
    rw [value, div_mul_eq_mul_div, div_eq_iff hpos]
    norm_cast
  have hnatural : (10 ^ d.scale : ℤ) ∣ d.numerator * 10 ^ n ↔
      10 ^ d.scale ∣ d.mantissa * 10 ^ n := by
    rw [← Int.natAbs_dvd_natAbs, Int.natAbs_mul, Int.natAbs_pow, Int.natAbs_pow, natAbs_numerator]
    rfl
  rw [fractionDigits, stripZeros_le_iff, hwhole, hnatural]

/-- A number has at most `n` digits before the point exactly if its magnitude is below `10 ^ n`. -/
theorem wholeDigits_le_iff : d.wholeDigits ≤ n ↔ |d.value| < 10 ^ n := by
  have hpos : (0 : ℚ) < 10 ^ d.scale := by positivity
  have hwhole : |d.value| < 10 ^ n ↔ d.mantissa / 10 ^ d.scale < 10 ^ n := by
    rw [abs_value, div_lt_iff₀ hpos, Nat.div_lt_iff_lt_mul (by positivity)]
    norm_cast
  rw [hwhole]
  simp only [wholeDigits, Nat.pow_eq]
  generalize d.mantissa / 10 ^ d.scale = whole
  split
  · rename_i hzero
    simp [hzero]
  · rename_i hnonzero
    cases n with
    | zero =>
        have hdigits : 0 < (Nat.toDigits 10 whole).length := Nat.length_toDigits_pos
        omega
    | succ n => exact Nat.length_toDigits_le_iff (by omega) (by omega)

end Taxonomy.Decimal
