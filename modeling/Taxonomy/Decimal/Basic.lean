/-!
# Decimal numbers

A decimal is a sign, a mantissa of 96 bits and a scale of at most 28 places. The scale is
part of the value as written, so that `1.50` keeps its last zero; comparing looks at the number
alone, through its count of units of `10 ^ (-28)`.
-/

namespace Taxonomy

/-- The decimal `± mantissa / 10 ^ scale`. -/
structure Decimal where
  negative : Bool
  mantissa : Nat
  scale : Nat
  mantissa_lt : mantissa < Nat.pow 2 96
  scale_le : scale ≤ 28
deriving DecidableEq

namespace Decimal

/-- The decimal of given parts, if they are within bounds. -/
def ofParts? (negative : Bool) (mantissa scale : Nat) : Option Decimal :=
  if h : mantissa < Nat.pow 2 96 ∧ scale ≤ 28 then some ⟨negative, mantissa, scale, h.1, h.2⟩
  else none

/-- A whole number, if its magnitude fits the mantissa. -/
def ofInt? (n : Int) : Option Decimal :=
  ofParts? (decide (n < 0)) n.natAbs 0

theorem natAbs_toInt_lt (n : Int64) : n.toInt.natAbs < Nat.pow 2 96 := by
  rw [Nat.pow_eq]
  have hlow := n.le_toInt
  have hhigh := n.toInt_lt
  omega

/-- A whole number of 64 bits. -/
def ofInt64 (n : Int64) : Decimal :=
  ⟨decide (n.toInt < 0), n.toInt.natAbs, 0, natAbs_toInt_lt n, by decide⟩

/-- A natural number below the bound of the mantissa. -/
def ofNat (n : Nat) (h : n < Nat.pow 2 96 := by decide) : Decimal :=
  ⟨false, n, 0, h, by decide⟩

/-- The number in units of `10 ^ (-28)`. -/
def units (d : Decimal) : Int :=
  let n : Int := (d.mantissa * Nat.pow 10 (28 - d.scale) : Nat)
  if d.negative then -n else n

/-- Equality of numbers, whatever their scales. -/
def same (a b : Decimal) : Bool :=
  a.units == b.units

def less (a b : Decimal) : Bool :=
  decide (a.units < b.units)

/-- Mantissa and scale without the zeros at the end of the fraction. -/
def stripZeros (mantissa : Nat) : Nat → Nat × Nat
  | 0 => (mantissa, 0)
  | scale + 1 =>
    if mantissa % 10 = 0 then stripZeros (mantissa / 10) scale else (mantissa, scale + 1)

/-- The number of places after the point that the number needs. -/
def fractionDigits (d : Decimal) : Nat :=
  (stripZeros d.mantissa d.scale).2

/-- The number of digits before the point, none for a number below one. -/
def wholeDigits (d : Decimal) : Nat :=
  let whole := d.mantissa / Nat.pow 10 d.scale
  if whole = 0 then 0 else (Nat.toDigits 10 whole).length

end Decimal

end Taxonomy
