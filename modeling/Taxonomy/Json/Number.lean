import Taxonomy.Json.Basic
import Taxonomy.Text.Digits
import Taxonomy.Text.Split

/-!
# Numbers of a JSON text

A whole number that fits 64 bits, signed or unsigned, is exact. Any other number keeps the
leading digits that fit 64 bits as its significand; its double is the double of the significand,
multiplied or divided by the double of one power of ten, and each of these steps rounds. Minus zero
is a double.
-/

namespace Taxonomy.Json

/-- The parts of a written number. -/
structure NumberParts where
  negative : Bool
  whole : List Nat
  fraction : Option (List Nat)
  exponent : Option Int

/-- The digits at the front as values. -/
def spanDigitValues (cs : List Char) : List Nat × List Char :=
  Text.spanDigits cs.length cs

/-- The exponent part: a letter, an optional sign and at least one digit, up to the end. -/
def exponentPart? : List Char → Option Int
  | [] => none
  | e :: cs =>
    if e = 'e' ∨ e = 'E' then
      let (negative, cs) := match cs with
        | '-' :: cs => (true, cs)
        | '+' :: cs => (false, cs)
        | cs => (false, cs)
      match spanDigitValues cs with
      | (d :: ds, []) =>
        let n : Int := Text.ofDigits 10 (d :: ds)
        some (if negative then -n else n)
      | _ => none
    else none

/-- Split a number by the grammar: no leading zeros, and digits on both sides of a point. -/
def numberParts? (cs : List Char) : Option NumberParts := do
  let (negative, cs) := match cs with
    | '-' :: cs => (true, cs)
    | cs => (false, cs)
  let (whole, cs) := spanDigitValues cs
  if whole.isEmpty || (whole.head? == some 0 && 1 < whole.length) then none
  let (fraction, cs) ← match cs with
    | '.' :: cs =>
      match spanDigitValues cs with
      | ([], _) => none
      | (ds, rest) => some (some ds, rest)
    | cs => some (none, cs)
  match cs with
  | [] => some ⟨negative, whole, fraction, none⟩
  | cs => (exponentPart? cs).map (fun e => ⟨negative, whole, fraction, some e⟩)

/-- Append digits to a significand while it fits 64 bits; also the number of digits left over. -/
def extendSignificand : Nat → List Nat → Nat × Nat
  | s, [] => (s, 0)
  | s, d :: ds =>
    if s * 10 + d < Nat.pow 2 64 then extendSignificand (s * 10 + d) ds else (s, (d :: ds).length)

/-- The double of a power of ten, none beyond the largest. -/
def powerOfTen? (n : Nat) : Option Binary64 :=
  Binary64.ofNat? (Nat.pow 10 n)

/-- `significand * 10 ^ exponent` by one multiplication or division of doubles; below the table
of powers a first division by `10 ^ 308` brings the exponent back into it. -/
def scaledDouble? (significand : Nat) (exponent : Int) : Option Binary64 := do
  let s ← Binary64.ofNat? significand
  if significand = 0 || exponent < -616 then some (Binary64.zero false)
  else if 308 < exponent then none
  else if 0 ≤ exponent then s.mul? (← powerOfTen? exponent.toNat)
  else if -308 ≤ exponent then s.div? (← powerOfTen? (-exponent).toNat)
  else (← s.div? (← powerOfTen? 308)).div? (← powerOfTen? (-exponent - 308).toNat)

/-- The double of a number that is not exact. -/
def inexact? (parts : NumberParts) : Option Json := do
  let (s, dropped) := extendSignificand 0 parts.whole
  let digits := parts.fraction.getD []
  let (s, unused) := extendSignificand s digits
  let exponent : Int :=
    (dropped : Int) - (digits.length - unused : Nat) + parts.exponent.getD 0
  let x ← scaledDouble? s exponent
  some (.float { x with negative := parts.negative })

/-- The value of a written number. -/
def readNumber? (cs : List Char) : Option Json := do
  let parts ← numberParts? cs
  match parts.fraction, parts.exponent with
  | none, none =>
    let n := Text.ofDigits 10 parts.whole
    if !parts.negative && n < Nat.pow 2 64 then some (.int n)
    else if parts.negative && 0 < n && n ≤ Nat.pow 2 63 then some (.int (-n))
    else inexact? parts
  | _, _ => inexact? parts

end Taxonomy.Json
