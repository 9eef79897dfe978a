import Taxonomy.Binary64.Shortest

/-!
# Writing doubles

The shortest digits of a double are written positionally while the number stays within
bounds, and with an exponent beyond them. What differs between the places that write doubles is
gathered in one record.
-/

namespace Taxonomy.Binary64

/-- How a double is written. -/
structure Layout where
  /-- Greatest number of digits before the point in positional form; none is always positional. -/
  widest : Option Nat
  /-- A whole number keeps a point and a zero. -/
  keepsPoint : Bool
  /-- A positive exponent is written with its sign. -/
  signsExponent : Bool
  tie : Tie

/-- Numbers of a JSON text: positional from `10 ^ (-5)` up to `10 ^ 16`, else as `1e+16`. -/
def Layout.json : Layout := ⟨some 16, true, true, .toEven⟩

/-- Numbers that became keys of a mapping: as in JSON text, but `1e16` without a sign. -/
def Layout.key : Layout := ⟨some 16, true, false, .toEven⟩

/-- All digits in their places, a whole number without a point. -/
def Layout.plain : Layout := ⟨none, false, false, .up⟩

/-- The text of `digits * 10 ^ power` in positional form. -/
def positional (keepsPoint : Bool) (d : DecimalDigits) : String :=
  let ds := Nat.toDigits 10 d.digits
  if 0 ≤ d.power then
    String.ofList (ds ++ List.replicate d.power.toNat '0' ++ if keepsPoint then ['.', '0'] else [])
  else
    let places := (-d.power).toNat
    if places < ds.length then
      String.ofList (ds.take (ds.length - places) ++ '.' :: ds.drop (ds.length - places))
    else
      String.ofList ('0' :: '.' :: (List.replicate (places - ds.length) '0' ++ ds))

/-- The text of `digits * 10 ^ power` with one digit before the point and an exponent. -/
def scientific (signsExponent : Bool) (d : DecimalDigits) : String :=
  let ds := Nat.toDigits 10 d.digits
  let exponent := d.power + ds.length - 1
  let sign := if exponent < 0 then ['-'] else if signsExponent then ['+'] else []
  let fraction := ds.drop 1
  String.ofList (ds.take 1 ++ (if fraction.isEmpty then [] else '.' :: fraction) ++
    'e' :: (sign ++ Nat.toDigits 10 exponent.natAbs))

/-- The text of a double. -/
def text (layout : Layout) (x : Binary64) : String :=
  let sign := if x.negative then "-" else ""
  if x.isZero then sign ++ if layout.keepsPoint then "0.0" else "0"
  else
    let d := shortest layout.tie x
    let point : Int := d.power + (Nat.toDigits 10 d.digits).length
    let isPositional := match layout.widest with
      | none => true
      | some widest => -5 < point && point ≤ widest
    sign ++ if isPositional then positional layout.keepsPoint d else scientific layout.signsExponent d

end Taxonomy.Binary64
