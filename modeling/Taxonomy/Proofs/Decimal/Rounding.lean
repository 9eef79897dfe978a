import Mathlib.Tactic.Ring
import Taxonomy.Proofs.Decimal.Text

/-!
# What the reading of decimals keeps

A reader takes as many digits as mantissa and scale have room for and rounds on the next one. If the
number that is written is one that a decimal can hold, then the digits that are left out are zeros
and nothing is lost, however long the text is.
-/

namespace Taxonomy.Decimal

variable {r : Reading} {cs rest : List Char} {ds : List Nat} {d : Decimal}
variable {mantissa scale n : Nat}

/-- A decimal can hold the number. -/
def Holds (q : ℚ) : Prop :=
  ∃ d : Decimal, d.value = q

/-- A magnitude with a sign. -/
def signed (negative : Bool) (q : ℚ) : ℚ :=
  if negative then -q else q

theorem signed_inj {negative : Bool} {p q : ℚ} : signed negative p = signed negative q ↔ p = q := by
  cases negative <;> simp [signed]

theorem abs_signed (negative : Bool) (q : ℚ) : |signed negative q| = |q| := by
  cases negative <;> simp [signed]

theorem signed_mul (negative : Bool) (p q : ℚ) :
    signed negative p * q = signed negative (p * q) := by
  cases negative <;> simp [signed]

/-- The sign of a zero does not count. -/
theorem signed_and_ne_zero (negative : Bool) (mantissa scale : Nat) :
    signed (negative && mantissa != 0) (mantissa / 10 ^ scale) =
      signed negative (mantissa / 10 ^ scale) := by
  by_cases hzero : mantissa = 0 <;> simp [signed, hzero]

theorem value_eq_signed (d : Decimal) :
    d.value = signed d.negative (d.mantissa / 10 ^ d.scale) := by
  rw [value, numerator, signed]
  split
  · push_cast
    rw [neg_div]
  · push_cast
    rfl

theorem exists_of_ofParts? {negative : Bool} (h : ofParts? negative mantissa scale = some d) :
    ∃ hmantissa hscale, d = ⟨negative, mantissa, scale, hmantissa, hscale⟩ := by
  rw [ofParts?] at h
  split at h
  · rename_i hbounds
    exact ⟨hbounds.1, hbounds.2, (Option.some.inj h).symm⟩
  · cases h

theorem value_of_ofParts? {negative : Bool} (h : ofParts? negative mantissa scale = some d) :
    d.value = signed negative (mantissa / 10 ^ scale) := by
  obtain ⟨_, _, rfl⟩ := exists_of_ofParts? h
  exact value_eq_signed _

theorem scale_of_ofParts? {negative : Bool} (h : ofParts? negative mantissa scale = some d) :
    d.scale = scale := by
  obtain ⟨_, _, rfl⟩ := exists_of_ofParts? h
  rfl

/-- Fractions of powers of ten are equal if their numerators are, at a common denominator. -/
theorem div_eq_div_iff_mul {m s k : Nat} :
    (m / 10 ^ s : ℚ) = n / 10 ^ k ↔ m * 10 ^ k = n * 10 ^ s := by
  rw [div_eq_div_iff (by positivity) (by positivity)]
  norm_cast

/-- A number can be held if its digits fit the mantissa at some scale. -/
theorem holds_signed_iff {negative : Bool} {k : Nat} :
    Holds (signed negative (n / 10 ^ k)) ↔
      ∃ m s, m < 2 ^ 96 ∧ s ≤ 28 ∧ n * 10 ^ s = m * 10 ^ k := by
  constructor
  · rintro ⟨d, hd⟩
    refine ⟨d.mantissa, d.scale, d.mantissa_lt, d.scale_le, ?_⟩
    have habs : |d.value| = n / 10 ^ k := by
      rw [hd, abs_signed, abs_of_nonneg (by positivity)]
    rw [abs_value, div_eq_div_iff_mul] at habs
    exact habs.symm
  · rintro ⟨m, s, hm, hs, heq⟩
    refine ⟨⟨negative, m, s, hm, hs⟩, ?_⟩
    rw [value_eq_signed, signed_inj, div_eq_div_iff_mul]
    exact heq.symm

/-! ### Digits -/

/-- Rounding on a zero changes nothing. -/
theorem roundOn?_zero {p : Nat × Nat} (h : roundOn? r 0 rest = some p) :
    p = (r.mantissa, r.scale) := by
  rw [roundOn?] at h
  split at h
  · cases h
  · cases h
    rfl

/-- A number that needs no more places than are kept ends in zeros behind them. -/
theorem eq_mul_pow_of_places {places k m s : Nat} (hs : s ≤ places)
    (heq : n * 10 ^ s = m * 10 ^ (places + k)) : n = m * 10 ^ (places - s) * 10 ^ k := by
  obtain ⟨more, rfl⟩ := Nat.exists_eq_add_of_le hs
  have hsplit : m * 10 ^ (s + more + k) = m * 10 ^ more * 10 ^ k * 10 ^ s := by ring
  rw [hsplit] at heq
  rw [Nat.add_sub_cancel_left]
  exact Nat.eq_of_mul_eq_mul_right (by positivity) heq

/-- The digits behind the places that are kept are then zeros. -/
theorem ofDigits_eq_zero_of_places {kept places m s : Nat}
    (hds : Text.ofDigits 10 ds < 10 ^ ds.length) (hs : s ≤ places)
    (heq : (kept * 10 ^ ds.length + Text.ofDigits 10 ds) * 10 ^ s = m * 10 ^ (places + ds.length)) :
    Text.ofDigits 10 ds = 0 := by
  have hmod := congrArg (· % 10 ^ ds.length) (eq_mul_pow_of_places hs heq)
  simpa only [Nat.mul_add_mod_self_right, Nat.mul_mod_left, Nat.mod_eq_of_lt hds] using hmod

/-- A number that needs more places than are kept, because the next digit would not fit the
mantissa, does not fit the mantissa. -/
theorem le_of_places_lt {kept places digit m s : Nat} (hfull : 2 ^ 96 ≤ kept * 10 + digit)
    (hs : places < s)
    (heq : (kept * 10 ^ (digit :: ds).length + Text.ofDigits 10 (digit :: ds)) * 10 ^ s =
      m * 10 ^ (places + (digit :: ds).length)) : 2 ^ 96 ≤ m := by
  have hdigits : Text.ofDigits 10 (digit :: ds) =
      digit * 10 ^ ds.length + Text.ofDigits 10 ds := by
    rw [← List.singleton_append, Text.ofDigits_append, Text.ofDigits_singleton]
  rw [hdigits, List.length_cons] at heq
  have hbound : 2 ^ 96 * 10 ^ (places + (ds.length + 1)) ≤ m * 10 ^ (places + (ds.length + 1)) :=
    calc 2 ^ 96 * 10 ^ (places + (ds.length + 1))
        ≤ (kept * 10 + digit) * 10 ^ (places + (ds.length + 1)) := Nat.mul_le_mul_right _ hfull
      _ = (kept * 10 ^ (ds.length + 1) + digit * 10 ^ ds.length) * 10 ^ (places + 1) := by ring
      _ ≤ (kept * 10 ^ (ds.length + 1) + (digit * 10 ^ ds.length + Text.ofDigits 10 ds)) * 10 ^ s :=
          Nat.mul_le_mul (by omega) (Nat.pow_le_pow_right (by omega) hs)
      _ = m * 10 ^ (places + (ds.length + 1)) := heq
  exact Nat.le_of_mul_le_mul_right hbound (by positivity)

/-- A number that needs no more places than have been read is rounded to itself. -/
theorem roundOn?_exact {digit : Nat} (hpoint : r.afterPoint = true)
    (hdigits : Text.ofDigits 10 (digit :: ds) < 10 ^ (digit :: ds).length)
    (h : roundOn? r digit rest = some (mantissa, scale)) {m s : Nat} (hs : s ≤ r.scale)
    (heq : (r.pushAll (digit :: ds)).mantissa * 10 ^ s =
      m * 10 ^ (r.pushAll (digit :: ds)).scale) :
    mantissa * 10 ^ (r.pushAll (digit :: ds)).scale =
      (r.pushAll (digit :: ds)).mantissa * 10 ^ scale := by
  rw [Reading.mantissa_pushAll, Reading.scale_pushAll hpoint] at heq ⊢
  have hzero := ofDigits_eq_zero_of_places hdigits hs heq
  have hdigit : digit = 0 := by
    rw [← List.singleton_append, Text.ofDigits_append, Text.ofDigits_singleton] at hzero
    have hpos : 0 < 10 ^ ds.length := by positivity
    exact (Nat.mul_eq_zero.mp (Nat.add_eq_zero_iff.mp hzero).1).resolve_right hpos.ne'
  subst hdigit
  obtain ⟨rfl, rfl⟩ := Prod.mk.inj (roundOn?_zero h)
  rw [hzero]
  ring

/-- If the mantissa has no room for the next digit, a number that a decimal can hold needs no more
places than have been read. -/
theorem roundOn?_exact_of_full {digit : Nat} (hpoint : r.afterPoint = true)
    (hfull : 2 ^ 96 ≤ r.mantissa * 10 + digit)
    (hdigits : Text.ofDigits 10 (digit :: ds) < 10 ^ (digit :: ds).length)
    (h : roundOn? r digit rest = some (mantissa, scale)) {m s : Nat} (hm : m < 2 ^ 96)
    (heq : (r.pushAll (digit :: ds)).mantissa * 10 ^ s =
      m * 10 ^ (r.pushAll (digit :: ds)).scale) :
    mantissa * 10 ^ (r.pushAll (digit :: ds)).scale =
      (r.pushAll (digit :: ds)).mantissa * 10 ^ scale := by
  have hshort : s ≤ r.scale := by
    by_contra hlong
    have hcount := heq
    rw [Reading.mantissa_pushAll, Reading.scale_pushAll hpoint] at hcount
    exact absurd hm (Nat.not_lt.mpr (le_of_places_lt hfull (Nat.not_le.mp hlong) hcount))
  exact roundOn?_exact hpoint hdigits h hshort heq

/-- Behind the point a number that a decimal can hold is read without a loss, wherever the reader
has to stop taking digits. -/
theorem readDigits?_exact (hpoint : r.afterPoint = true) (hroom : cs ≠ [] → r.scale < 28)
    (hspells : Text.Spells Text.digit? cs ds)
    (h : readDigits? r cs = some (mantissa, scale)) {m s : Nat} (hm : m < 2 ^ 96) (hs : s ≤ 28)
    (heq : (r.pushAll ds).mantissa * 10 ^ s = m * 10 ^ (r.pushAll ds).scale) :
    mantissa * 10 ^ (r.pushAll ds).scale = (r.pushAll ds).mantissa * 10 ^ scale := by
  induction cs generalizing r ds with
  | nil =>
      obtain rfl := hspells.eq_nil
      rw [readDigits?] at h
      split at h
      · cases h
        rfl
      · cases h
  | cons c cs ih =>
      have hdigits := hspells.ofDigits_lt
      obtain ⟨digit, ds, rfl, hdigit, hspells⟩ := hspells.exists_cons
      have hbelow : r.scale < 28 := hroom (List.cons_ne_nil c cs)
      have hplace : (r.push digit).scale = r.scale + 1 := if_pos hpoint
      rw [readDigits?, hdigit] at h
      simp only [hpoint, if_true, Bool.true_and] at h
      split at h
      · rename_i hfull
        exact roundOn?_exact_of_full hpoint hfull hdigits h hm heq
      · split at h
        · -- The scale has no room for more places and there are more digits.
          rename_i hlast
          simp only [Bool.and_eq_true, beq_iff_eq, Bool.not_eq_true', List.isEmpty_eq_false_iff]
            at hlast
          obtain ⟨c', cs, rfl⟩ := List.exists_cons_of_ne_nil hlast.2
          have hdigits' := hspells.ofDigits_lt
          obtain ⟨digit', ds, rfl, hdigit', hspells⟩ := hspells.exists_cons
          have hunderscore : c' ≠ '_' := Text.ne_of_digit? hdigit' (by decide)
          rw [roundPlace?, if_neg hunderscore, hdigit'] at h
          have hround : roundOn? (r.push digit) digit' cs = some (mantissa, scale) := by
            simpa only [roundOn?, Reading.push, hpoint, if_true] using h
          exact roundOn?_exact (r := r.push digit) hpoint hdigits' hround (by omega) heq
        · rename_i hmore
          have hnext : cs ≠ [] → (r.push digit).scale < 28 := by
            intro hcs
            simp only [Bool.and_eq_true, beq_iff_eq, Bool.not_eq_true', List.isEmpty_eq_false_iff,
              not_and] at hmore
            have hscale : r.scale + 1 ≠ 28 := fun hscale => hmore hscale hcs
            omega
          have hread : readDigits? (r.push digit) cs = some (mantissa, scale) := by
            simpa only [Reading.push, hpoint, if_true] using h
          exact ih (r := r.push digit) hpoint hnext hspells hread heq

end Taxonomy.Decimal
