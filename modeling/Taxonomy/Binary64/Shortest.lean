import Taxonomy.Binary64.Basic

/-!
# The fewest digits that read back

A nonzero double is the nearest double to every real of an interval around it; the ends belong
to it when its significand is even. Its shortest decimal is the point `digits * 10 ^ power` of that
interval with the greatest power of ten, and of two such points the nearer one.
-/

namespace Taxonomy.Binary64

/-- The decimal `digits * 10 ^ power`. -/
structure DecimalDigits where
  digits : Nat
  power : Int
deriving DecidableEq

/-- What happens to a value exactly between two shortest decimals. -/
inductive Tie
  /-- The even one is taken. -/
  | toEven
  /-- The greater one is taken. -/
  | up
deriving DecidableEq

/-- Numerator and denominator of `n * 2 ^ two / 10 ^ ten`. -/
def ratioOnGrid (n : Nat) (two ten : Int) : Nat × Nat :=
  let (a, b) := quotientOfPower n two
  if 0 ≤ ten then (a, b * Nat.pow 10 ten.toNat) else (a * Nat.pow 10 (-ten).toNat, b)

/-- The best point of the grid of multiples of `10 ^ power`, if one lies in the interval. In units
of a quarter of the last place the value is `4 * significand`, and the interval reaches two
units up and two down, one down at a power of two. -/
def gridPoint? (tie : Tie) (x : Binary64) (power : Int) : Option Nat :=
  let below := if x.significand = Nat.pow 2 52 ∧ -1074 < x.exponent then 1 else 2
  let (value, unit) := ratioOnGrid (4 * x.significand) (x.exponent - 2) power
  let (low, _) := ratioOnGrid (4 * x.significand - below) (x.exponent - 2) power
  let (high, _) := ratioOnGrid (4 * x.significand + 2) (x.exponent - 2) power
  let q := value / unit
  let closed := x.significand % 2 == 0
  let lowFits := low < q * unit || (closed && low == q * unit)
  let highFits := (q + 1) * unit < high || (closed && (q + 1) * unit == high)
  let r := value % unit
  if lowFits && highFits then
    if 2 * r < unit then some q
    else if unit < 2 * r then some (q + 1)
    else match tie with
      | .toEven => some (if q % 2 = 0 then q else q + 1)
      | .up => some (q + 1)
  else if lowFits then some q
  else if highFits then some (q + 1)
  else none

/-- The first power of ten, counted down, whose grid meets the interval. -/
def shortestFrom (tie : Tie) (x : Binary64) : Nat → Int → DecimalDigits
  | 0, power => ⟨0, power⟩
  | steps + 1, power =>
    match gridPoint? tie x power with
    | some digits => ⟨digits, power⟩
    | none => shortestFrom tie x steps (power - 1)

/-- The shortest decimal that reads back as the magnitude of a nonzero double. No double is as
great as `10 ^ 309`, and the interval of the least meets the grid of `10 ^ (-324)`. -/
def shortest (tie : Tie) (x : Binary64) : DecimalDigits :=
  shortestFrom tie x 634 309

end Taxonomy.Binary64
