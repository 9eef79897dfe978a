import Taxonomy.Decimal.Text

/-!
# Violated constraints

What is wrong with a value that a column refuses, and how it is said.
-/

namespace Taxonomy

/-- What is wrong with a value. -/
inductive Breach
  /-- The names of the expected and the actual kind. -/
  | kindMismatch (expected actual : String)
  | notNullable
  | belowMinimum (value min : Decimal)
  | aboveMaximum (value max : Decimal)
  | tooManyDigits (value : Decimal) (maxDigits decimalPlaces : UInt32)
  | tooLong (length maxLength : Nat)
  | invalidChoice (value : String)
  /-- The value was assigned before and may not change. -/
  | immutable
deriving DecidableEq

def Breach.message : Breach → String
  | kindMismatch expected actual => "expected " ++ expected ++ " value, got " ++ actual
  | notNullable => "value may not be null"
  | belowMinimum value min => value.text ++ " is below the minimum of " ++ min.text
  | aboveMaximum value max => value.text ++ " is above the maximum of " ++ max.text
  | tooManyDigits value maxDigits decimalPlaces =>
    value.text ++ " exceeds " ++ toString maxDigits.toNat ++ " digits with " ++
      toString decimalPlaces.toNat ++ " decimal places"
  | tooLong length maxLength =>
    "length " ++ toString length ++ " exceeds maximum of " ++ toString maxLength
  | invalidChoice value => "'" ++ value ++ "' is not a valid choice"
  | immutable => "field is immutable once assigned"

/-- A value refused by a column. -/
structure ConstraintViolation where
  column : String
  breach : Breach
deriving DecidableEq

def ConstraintViolation.message (v : ConstraintViolation) : String :=
  v.column ++ ": " ++ v.breach.message

end Taxonomy
