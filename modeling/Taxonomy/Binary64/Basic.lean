/-!
# Finite double-precision numbers

A finite double is a sign, a significand below `2 ^ 53` and a power of two. Every operation
is the exact rational result rounded once to the nearest double, an exact half going to the even
significand; a result past the largest double has no value here.
-/

namespace Taxonomy

/-- The one form of each finite double: the significand is full unless the exponent is least. -/
def Binary64.Canonical (significand : Nat) (exponent : Int) : Prop :=
  significand < Nat.pow 2 53 ∧ -1074 ≤ exponent ∧ exponent ≤ 971 ∧
    (exponent = -1074 ∨ Nat.pow 2 52 ≤ significand)

instance (significand : Nat) (exponent : Int) :
    Decidable (Binary64.Canonical significand exponent) :=
  inferInstanceAs (Decidable (_ ∧ _ ∧ _ ∧ _))

/-- The finite double `± significand * 2 ^ exponent`. -/
structure Binary64 where
  negative : Bool
  significand : Nat
  exponent : Int
  canonical : Binary64.Canonical significand exponent
deriving DecidableEq

namespace Binary64

/-- The double of given parts, if they are in canonical form. -/
def ofParts? (negative : Bool) (significand : Nat) (exponent : Int) : Option Binary64 :=
  if h : Canonical significand exponent then some ⟨negative, significand, exponent, h⟩ else none

/-- Zero of either sign. -/
def zero (negative : Bool) : Binary64 :=
  ⟨negative, 0, -1074, by decide⟩

def isZero (x : Binary64) : Bool :=
  x.significand == 0

/-- Equality of values: the two zeros are equal. -/
def same (x y : Binary64) : Bool :=
  (x.isZero && y.isZero) || decide (x = y)

/-- `n * 2 ^ e` as a quotient of natural numbers. -/
def quotientOfPower (n : Nat) (e : Int) : Nat × Nat :=
  if 0 ≤ e then (n * Nat.pow 2 e.toNat, 1) else (n, Nat.pow 2 (-e).toNat)

/-- The natural number nearest to `num / den`, an exact half going to the even one. -/
def nearest (num den : Nat) : Nat :=
  let q := num / den
  let r := num % den
  if 2 * r > den || (2 * r == den && q % 2 == 1) then q + 1 else q

/-- The exponent at which the significand of `num / den` has its full width, or the least one. -/
def exponentOf (num den : Nat) : Int :=
  let guess : Int := (Nat.log2 num : Int) - Nat.log2 den - 53
  let (n, d) := quotientOfPower num (-guess)
  max (-1074) (if Nat.pow 2 53 ≤ n / (d * den) then guess + 1 else guess)

/-- The double nearest to `num / den`, none when it is past the largest. -/
def ofRatio? (negative : Bool) (num den : Nat) : Option Binary64 :=
  if num = 0 then some (zero negative)
  else
    let e := exponentOf num den
    let (n, d) := quotientOfPower num (-e)
    let s := nearest n (d * den)
    if s = Nat.pow 2 53 then ofParts? negative (Nat.pow 2 52) (e + 1) else ofParts? negative s e

/-- The double nearest to a natural number. -/
def ofNat? (n : Nat) : Option Binary64 :=
  ofRatio? false n 1

/-- The double nearest to `digits * 10 ^ exponent`. -/
def ofDecimal? (negative : Bool) (digits : Nat) (exponent : Int) : Option Binary64 :=
  let magnitude : Int := (Nat.toDigits 10 digits).length + exponent
  if digits = 0 || magnitude < -330 then some (zero negative)
  else if 310 < magnitude then none
  else if 0 ≤ exponent then ofRatio? negative (digits * Nat.pow 10 exponent.toNat) 1
  else ofRatio? negative digits (Nat.pow 10 (-exponent).toNat)

/-- The product, rounded once. -/
def mul? (x y : Binary64) : Option Binary64 :=
  let (n, d) := quotientOfPower (x.significand * y.significand) (x.exponent + y.exponent)
  ofRatio? (x.negative != y.negative) n d

/-- The quotient by a number other than zero, rounded once. -/
def div? (x y : Binary64) : Option Binary64 :=
  if y.significand = 0 then none
  else
    let (n, d) := quotientOfPower x.significand (x.exponent - y.exponent)
    ofRatio? (x.negative != y.negative) n (d * y.significand)

end Binary64

end Taxonomy
