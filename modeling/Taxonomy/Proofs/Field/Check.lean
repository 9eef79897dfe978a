import Taxonomy.Field.Descriptor
import Taxonomy.Proofs.Decimal.Value
import Taxonomy.Proofs.Outcome
import Taxonomy.Proofs.RecordId

/-!
# What a column accepts

A column accepts the values of its kind that its constraints allow, and null if it is
nullable. Each checker of a descriptor is described here by the condition that it tests, in numbers
and texts; the order of the tests decides which violation is reported and nothing else.
-/

namespace Taxonomy

/-- The number that a value is, if it is one. -/
def FacetValue.number? : FacetValue → Option ℚ
  | .integer n => some n.toInt
  | .decimal d => some d.value
  | _ => none

/-- The number is within the bounds, as far as there are any. -/
def Constraints.Bounds (c : Constraints) (q : ℚ) : Prop :=
  (∀ min ∈ c.min, min.value ≤ q) ∧ ∀ max ∈ c.max, q ≤ max.value

/-- The number can be written with these digits: it needs no more places after the point, and what
stands before the point fits the digits that are left. The difference is one of words, so it is the
number of digits that are left only if there are at least as many digits as places. -/
def FitsDigits (maxDigits decimalPlaces : UInt32) (q : ℚ) : Prop :=
  (∃ m : ℤ, q * 10 ^ decimalPlaces.toNat = m) ∧ |q| < 10 ^ (maxDigits - decimalPlaces).toNat

namespace FieldDescriptor

variable {f : FieldDescriptor} {d : Decimal} {s : String} {v : FacetValue}

/-- The text is short enough and among the choices, or it is empty and the column may be blank. -/
def AdmitsText (f : FieldDescriptor) (s : String) : Prop :=
  s = "" ∧ f.blank = true ∨
    (∀ maxLength ∈ f.constraints.maxLength, s.length ≤ maxLength) ∧
      (f.constraints.choices = [] ∨ ∃ c ∈ f.constraints.choices, c.id = s)

/-- The value is of the column's kind and within its constraints, or it is null and may be. -/
def Admits (f : FieldDescriptor) (v : FacetValue) : Prop :=
  v = .null ∧ f.nullable = true ∨
    match f.kind with
    | .boolean => ∃ b, v = .boolean b
    | .integer => ∃ n : Int64, v = .integer n ∧ f.constraints.Bounds n.toInt
    | .decimal maxDigits decimalPlaces =>
      ∃ q ∈ v.number?, FitsDigits maxDigits decimalPlaces q ∧ f.constraints.Bounds q
    | .date => ∃ day, v = .date day
    | .dateTime => ∃ t, v = .dateTime t
    | .string => ∃ s, v = .string s ∧ f.AdmitsText s
    | .uuid => (∃ id, v = .uuid id) ∨ ∃ s, v = .string s ∧ RecordId.CanonicalForm s.toList

@[simp] theorem refuse_ne_ok {α : Type} (f : FieldDescriptor) (breach : Breach) (a : α) :
    f.refuse breach ≠ .ok a := by
  intro h
  cases h

/-- Nothing is tested after a refusal. -/
@[simp] theorem refuse_bind {α β : Type} (f : FieldDescriptor) (breach : Breach)
    (rest : α → Except ConstraintViolation β) : (f.refuse breach >>= rest) = f.refuse breach := rfl

/-- A test that refuses when a condition holds is passed when it does not. -/
@[simp] theorem ite_refuse_eq_ok_iff {α : Type} {c : Prop} [Decidable c] {breach : Breach}
    {x : Except ConstraintViolation α} {a : α} :
    (if c then f.refuse breach else x) = .ok a ↔ ¬ c ∧ x = .ok a := by
  by_cases hc : c <;> simp [hc]

theorem checkBounds_eq_ok_iff : f.checkBounds d = .ok () ↔ f.constraints.Bounds d.value := by
  cases hmin : f.constraints.min <;> cases hmax : f.constraints.max <;>
    simp [checkBounds, Constraints.Bounds, hmin, hmax, Decimal.less_iff]

theorem checkDigits_eq_ok_iff {maxDigits decimalPlaces : UInt32} :
    f.checkDigits maxDigits decimalPlaces d = .ok () ↔
      FitsDigits maxDigits decimalPlaces d.value := by
  rw [checkDigits, ite_refuse_eq_ok_iff, FitsDigits, ← Decimal.fractionDigits_le_iff,
    ← Decimal.wholeDigits_le_iff]
  simp

/-- With more places than digits there seem to be many digits left. -/
example : (plain "Rate" .value (.decimal 2 8)).checkDigits 2 8 (.ofNat 1) = .ok () := by
  decide

theorem checkDecimal_eq_ok_iff {maxDigits decimalPlaces : UInt32} :
    f.checkDecimal maxDigits decimalPlaces d = .ok () ↔
      FitsDigits maxDigits decimalPlaces d.value ∧ f.constraints.Bounds d.value := by
  rw [checkDecimal, Except.test_bind_eq_ok_iff, checkDigits_eq_ok_iff, checkBounds_eq_ok_iff]

theorem checkString_eq_ok_iff : f.checkString s = .ok () ↔ f.AdmitsText s := by
  rw [checkString, AdmitsText]
  by_cases hblank : s = "" ∧ f.blank = true
  · simp [hblank]
  · cases hlength : f.constraints.maxLength <;>
      simp [hblank, or_iff_not_imp_left]

/-- A column accepts exactly the values that it admits. -/
theorem check_eq_ok_iff : f.check v = .ok () ↔ f.Admits v := by
  rw [Admits]
  cases hkind : f.kind with
  | boolean | date | dateTime => cases v <;> simp [check, hkind]
  | integer =>
      cases v with
      | integer n => simp [check, hkind, checkBounds_eq_ok_iff, Decimal.value_ofInt64]
      | _ => simp [check, hkind]
  | decimal maxDigits decimalPlaces =>
      cases v with
      | integer n =>
          simp [check, hkind, checkDecimal_eq_ok_iff, Decimal.value_ofInt64, FacetValue.number?]
      | decimal d => simp [check, hkind, checkDecimal_eq_ok_iff, FacetValue.number?]
      | _ => simp [check, hkind, FacetValue.number?]
  | string =>
      cases v with
      | string s => simp [check, hkind, checkString_eq_ok_iff]
      | _ => simp [check, hkind]
  | uuid =>
      cases v with
      | string s =>
          by_cases hform : RecordId.CanonicalForm s.toList <;>
            simp [check, hkind, RecordId.isCanonical_iff, hform]
      | _ => simp [check, hkind]

/-- What is read from JSON is the value that it denotes, if the column accepts that. -/
theorem checkJson_eq_ok_iff {value : Json} :
    f.checkJson value = .ok v ↔ valueOf? f.kind value = some v ∧ f.check v = .ok () := by
  rw [checkJson, parseJson]
  cases hvalue : valueOf? f.kind value with
  | none => simp
  | some w =>
      simp only [Except.ok_bind, Except.test_bind_eq_ok_iff, Except.pure_eq_ok, Except.ok.injEq,
        Option.some.injEq]
      constructor
      · rintro ⟨hcheck, rfl⟩
        exact ⟨rfl, hcheck⟩
      · rintro ⟨rfl, hcheck⟩
        exact ⟨hcheck, rfl⟩

/-- JSON that denotes no value of the column's kind is refused for its kind. -/
theorem checkJson_of_no_value {value : Json} (h : valueOf? f.kind value = none) :
    f.checkJson value = f.refuse (.kindMismatch f.kind.name (jsonKindName value)) := by
  rw [checkJson, parseJson, h]
  rfl

end FieldDescriptor

end Taxonomy
