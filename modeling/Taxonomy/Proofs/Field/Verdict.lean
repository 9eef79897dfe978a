import Taxonomy.Element.Compile
import Taxonomy.Proofs.Field.Check

/-!
# The verdict on a number

A decimal column takes the numbers of fixed point: whole numbers of units of its last place, with a
limited count of digits. What it finds wrong with a number is the first of three things, too many
digits, too small, too great, and each of them is said of the number alone. So a number gets the
same verdict in whatever form it is submitted, but for the form that the message quotes.
-/

namespace Taxonomy

/-- The decimal that stands for a number in a decimal column. -/
def FacetValue.decimal? : FacetValue → Option Decimal
  | .integer n => some (.ofInt64 n)
  | .decimal d => some d
  | _ => none

/-- The number is a whole number of units of the last place, and that has at most `maxDigits`
digits. -/
def FixedPoint (maxDigits decimalPlaces : Nat) (q : ℚ) : Prop :=
  ∃ m : ℤ, |m| < 10 ^ maxDigits ∧ q = m / 10 ^ decimalPlaces

/-- The same message about another form of the number. -/
def Breach.about (d : Decimal) : Breach → Breach
  | .belowMinimum _ min => .belowMinimum d min
  | .aboveMaximum _ max => .aboveMaximum d max
  | .tooManyDigits _ maxDigits decimalPlaces => .tooManyDigits d maxDigits decimalPlaces
  | other => other

def ConstraintViolation.about (d : Decimal) (violation : ConstraintViolation) :
    ConstraintViolation :=
  { violation with breach := violation.breach.about d }

/-- Limiting the digits before the point to those that the places leave is limiting all digits. -/
theorem fitsDigits_iff_fixedPoint {maxDigits decimalPlaces : UInt32} {q : ℚ}
    (h : decimalPlaces.toNat ≤ maxDigits.toNat) :
    FitsDigits maxDigits decimalPlaces q ↔ FixedPoint maxDigits.toNat decimalPlaces.toNat q := by
  have hleft : (maxDigits - decimalPlaces).toNat + decimalPlaces.toNat = maxDigits.toNat := by
    rw [UInt32.toNat_sub_of_le maxDigits decimalPlaces (UInt32.le_iff_toNat_le.mpr h),
      Nat.sub_add_cancel h]
  have hpos : (0 : ℚ) < 10 ^ decimalPlaces.toNat := by positivity
  -- The magnitude is bounded in units of the last place.
  have hbound (m : ℤ) (hm : q * 10 ^ decimalPlaces.toNat = m) :
      |q| < 10 ^ (maxDigits - decimalPlaces).toNat ↔ |m| < 10 ^ maxDigits.toNat := by
    have habs : |q| * 10 ^ decimalPlaces.toNat = |(m : ℚ)| := by
      rw [← hm, abs_mul, abs_of_pos hpos]
    rw [← mul_lt_mul_iff_left₀ hpos, habs, ← pow_add, hleft]
    norm_cast
  constructor
  · rintro ⟨⟨m, hm⟩, hmagnitude⟩
    exact ⟨m, (hbound m hm).mp hmagnitude, by rw [← hm, mul_div_cancel_right₀ q hpos.ne']⟩
  · rintro ⟨m, hmagnitude, rfl⟩
    have hm : (m / 10 ^ decimalPlaces.toNat : ℚ) * 10 ^ decimalPlaces.toNat = m :=
      div_mul_cancel₀ _ hpos.ne'
    exact ⟨⟨m, hm⟩, (hbound m hm).mpr hmagnitude⟩

namespace FieldDescriptor

variable {f : FieldDescriptor} {d d' : Decimal} {v : FacetValue} {breach : Breach}
variable {maxDigits decimalPlaces : UInt32}

/-- What is wrong with a number as far as the bounds go, the lower one first. -/
inductive BoundFault (f : FieldDescriptor) (d : Decimal) : Breach → Prop
  | belowMinimum {min : Decimal} (hmin : f.constraints.min = some min)
      (below : d.value < min.value) : BoundFault f d (.belowMinimum d min)
  | aboveMaximum {max : Decimal} (notBelow : ∀ min ∈ f.constraints.min, min.value ≤ d.value)
      (hmax : f.constraints.max = some max) (above : max.value < d.value) :
      BoundFault f d (.aboveMaximum d max)

/-- The first thing that is wrong with a number in a decimal column. -/
inductive NumberFault (f : FieldDescriptor) (maxDigits decimalPlaces : UInt32) (d : Decimal) :
    Breach → Prop
  | tooManyDigits (h : ¬ FixedPoint maxDigits.toNat decimalPlaces.toNat d.value) :
      NumberFault f maxDigits decimalPlaces d (.tooManyDigits d maxDigits decimalPlaces)
  | outOfBounds {breach : Breach} (fixed : FixedPoint maxDigits.toNat decimalPlaces.toNat d.value)
      (h : f.BoundFault d breach) : NumberFault f maxDigits decimalPlaces d breach

/-- What is wrong with a number is wrong with it in any form. -/
theorem BoundFault.about (h : f.BoundFault d breach) (hvalue : d'.value = d.value) :
    f.BoundFault d' (breach.about d') := by
  cases h with
  | belowMinimum hmin below => exact .belowMinimum hmin (hvalue ▸ below)
  | aboveMaximum notBelow hmax above =>
      exact .aboveMaximum (hvalue ▸ notBelow) hmax (hvalue ▸ above)

theorem NumberFault.about (h : f.NumberFault maxDigits decimalPlaces d breach)
    (hvalue : d'.value = d.value) :
    f.NumberFault maxDigits decimalPlaces d' (breach.about d') := by
  cases h with
  | tooManyDigits h => exact .tooManyDigits (hvalue ▸ h)
  | outOfBounds fixed h => exact .outOfBounds (hvalue ▸ fixed) (h.about hvalue)

theorem checkBounds_of_boundFault (h : f.BoundFault d breach) :
    f.checkBounds d = f.refuse breach := by
  cases h with
  | belowMinimum hmin below => simp [checkBounds, hmin, Decimal.less_iff, below]
  | aboveMaximum notBelow hmax above =>
      cases hmin : f.constraints.min with
      | none => simp [checkBounds, hmin, hmax, Decimal.less_iff, above]
      | some min =>
          have hlow : ¬ d.value < min.value := not_lt.mpr (notBelow min hmin)
          simp [checkBounds, hmin, hmax, Decimal.less_iff, above, hlow]

theorem exists_boundFault (h : ¬ f.constraints.Bounds d.value) :
    ∃ breach, f.BoundFault d breach := by
  by_cases hlow : ∀ min ∈ f.constraints.min, min.value ≤ d.value
  · have hhigh : ¬ ∀ max ∈ f.constraints.max, d.value ≤ max.value := fun hhigh => h ⟨hlow, hhigh⟩
    push Not at hhigh
    obtain ⟨max, hmax, above⟩ := hhigh
    exact ⟨_, .aboveMaximum hlow hmax above⟩
  · push Not at hlow
    obtain ⟨min, hmin, below⟩ := hlow
    exact ⟨_, .belowMinimum hmin below⟩

theorem checkDecimal_of_numberFault (hplaces : decimalPlaces.toNat ≤ maxDigits.toNat)
    (h : f.NumberFault maxDigits decimalPlaces d breach) :
    f.checkDecimal maxDigits decimalPlaces d = f.refuse breach := by
  rw [checkDecimal]
  cases h with
  | tooManyDigits hdigits =>
      rw [← fitsDigits_iff_fixedPoint hplaces, ← checkDigits_eq_ok_iff (f := f),
        checkDigits] at hdigits
      rw [checkDigits]
      split
      · rfl
      · rename_i hfits
        exact absurd (if_neg hfits) hdigits
  | outOfBounds fixed hbounds =>
      rw [← fitsDigits_iff_fixedPoint hplaces, ← checkDigits_eq_ok_iff (f := f)] at fixed
      rw [fixed, Except.ok_bind, checkBounds_of_boundFault hbounds]

theorem exists_numberFault
    (h : ¬ (FixedPoint maxDigits.toNat decimalPlaces.toNat d.value ∧
      f.constraints.Bounds d.value)) :
    ∃ breach, f.NumberFault maxDigits decimalPlaces d breach := by
  by_cases fixed : FixedPoint maxDigits.toNat decimalPlaces.toNat d.value
  · obtain ⟨breach, hbounds⟩ := exists_boundFault fun hbounds => h ⟨fixed, hbounds⟩
    exact ⟨breach, .outOfBounds fixed hbounds⟩
  · exact ⟨_, .tooManyDigits fixed⟩

/-- In a decimal column a number is checked as the decimal that stands for it. -/
theorem check_of_decimal? (hkind : f.kind = .decimal maxDigits decimalPlaces)
    (hv : v.decimal? = some d) : f.check v = f.checkDecimal maxDigits decimalPlaces d := by
  cases v with
  | integer n | decimal d =>
      cases hv
      simp only [check, hkind]
  | _ => cases hv

/-- A decimal column takes a number exactly if it is of fixed point and within the bounds, and
otherwise refuses it with the first thing that is wrong. Equal numbers get the same verdict. -/
theorem check_number_verdict (hkind : f.kind = .decimal maxDigits decimalPlaces)
    (hplaces : decimalPlaces.toNat ≤ maxDigits.toNat) (hv : v.decimal? = some d) :
    (f.check v = .ok () ↔
      FixedPoint maxDigits.toNat decimalPlaces.toNat d.value ∧ f.constraints.Bounds d.value) ∧
    (∀ violation, f.check v = .error violation ↔
      ∃ breach, f.NumberFault maxDigits decimalPlaces d breach ∧
        ⟨f.columnName, breach⟩ = violation) ∧
    ∀ w d', w.decimal? = some d' → d'.value = d.value →
      f.check w = (f.check v).mapError (·.about d') := by
  have hok {v d} (hv : FacetValue.decimal? v = some d) : f.check v = .ok () ↔
      FixedPoint maxDigits.toNat decimalPlaces.toNat d.value ∧ f.constraints.Bounds d.value := by
    rw [check_of_decimal? hkind hv, checkDecimal_eq_ok_iff, fitsDigits_iff_fixedPoint hplaces]
  have hfault {v d breach} (hv : FacetValue.decimal? v = some d)
      (h : f.NumberFault maxDigits decimalPlaces d breach) : f.check v = f.refuse breach := by
    rw [check_of_decimal? hkind hv, checkDecimal_of_numberFault hplaces h]
  refine ⟨hok hv, fun violation => ⟨fun h => ?_, ?_⟩, fun w d' hw hvalue => ?_⟩
  · obtain ⟨breach, hbreach⟩ : ∃ breach, f.NumberFault maxDigits decimalPlaces d breach := by
      refine exists_numberFault fun haccepted => ?_
      rw [(hok hv).mpr haccepted] at h
      cases h
    rw [hfault hv hbreach] at h
    exact ⟨breach, hbreach, Except.error.inj h⟩
  · rintro ⟨breach, hbreach, rfl⟩
    exact hfault hv hbreach
  · by_cases haccepted :
        FixedPoint maxDigits.toNat decimalPlaces.toNat d.value ∧ f.constraints.Bounds d.value
    · rw [(hok hv).mpr haccepted, (hok hw).mpr (hvalue ▸ haccepted)]
      rfl
    · obtain ⟨breach, hbreach⟩ := exists_numberFault haccepted
      rw [hfault hv hbreach, hfault hw (hbreach.about hvalue)]
      rfl

/-- A share in percent. -/
def shares : FieldDescriptor :=
  { plain "Share" .value .fixedDecimal with
    constraints := CompiledElement.numberConstraints "Percent" }

/-- A share of a unit of the last place more than all is too great, with a zero behind it too. -/
theorem check_number_verdict_shares :
    let d : Decimal := ⟨false, 10000000001, 8, by decide, by decide⟩
    let d' : Decimal := ⟨false, 100000000010, 9, by decide, by decide⟩
    shares.kind = .decimal 24 8 ∧ (8 : UInt32).toNat ≤ (24 : UInt32).toNat ∧
      (FacetValue.decimal d).decimal? = some d ∧
      shares.NumberFault 24 8 d (.aboveMaximum d (.ofNat 100)) ∧
      shares.check (.decimal d') = (shares.check (.decimal d)).mapError (·.about d') := by
  intro d d'
  have hrefused : shares.check (.decimal d) =
      .error ⟨"Share_Value", .aboveMaximum d (.ofNat 100)⟩ := by
    decide +kernel
  obtain ⟨-, hfault, hsame⟩ :=
    check_number_verdict (f := shares) (v := .decimal d) rfl (by decide) rfl
  obtain ⟨breach, hbreach, hviolation⟩ := (hfault _).mp hrefused
  cases hviolation
  exact ⟨rfl, by decide, rfl, hbreach, hsame (.decimal d') d' rfl (Decimal.same_iff.mp (by decide))⟩

end FieldDescriptor

end Taxonomy
