import Taxonomy.Decimal.Basic
import Taxonomy.Text.Digits
import Taxonomy.Text.Split

/-!
# Decimal numbers as text

A decimal is written with exactly as many places as its scale. It is read from digits with
at most one point, or from such digits with an exponent. Digits past the last place that the
mantissa or the scale can hold are rounded away on the first of them alone, five going up.
Underscores may stand anywhere after the first digit.
-/

namespace Taxonomy.Decimal

/-- The text of a decimal, every place of its scale written. -/
def text (d : Decimal) : String :=
  let sign := if d.negative then ['-'] else []
  let ds := Text.zeroPadded (d.scale + 1) d.mantissa
  let places := ds.length - d.scale
  String.ofList (sign ++
    if d.scale = 0 then ds else ds.take places ++ '.' :: ds.drop places)

/-- What has been read of a number. -/
structure Reading where
  mantissa : Nat
  scale : Nat
  afterPoint : Bool
  anyDigit : Bool
  /-- The mantissa has left the range of the short form, whose greatest values are about `2 ^ 64 / 10`. -/
  wide : Bool

def Reading.start : Reading := ⟨0, 0, false, false, false⟩

/-- From this mantissa on a number is no longer in the short form. -/
def wideBound : Nat := Nat.pow 2 64 / 10 - 255

/-- What may follow the rounding place. -/
def isTrailing (c : Char) : Bool :=
  Text.isDigit c || c == '_'

/-- Round on one digit. A mantissa that overflows gives up its last place. -/
def roundOn? (r : Reading) (digit : Nat) (rest : List Char) : Option (Nat × Nat) :=
  if !rest.all isTrailing then none
  else if digit < 5 then some (r.mantissa, r.scale)
  else if r.mantissa + 1 < Nat.pow 2 96 then some (r.mantissa + 1, r.scale)
  else if r.scale = 0 then none
  else some ((r.mantissa + 5) / 10, r.scale - 1)

/-- The rounding place. There an underscore counts as zero in the short form and is passed over
otherwise. -/
def roundPlace? (r : Reading) : List Char → Option (Nat × Nat)
  | [] => some (r.mantissa, r.scale)
  | c :: cs =>
    if c = '_' then if r.wide then roundPlace? r cs else roundOn? r 0 cs
    else match Text.digit? c with
      | some d => roundOn? r d cs
      | none => none

/-- Mantissa and scale of digits with at most one point. -/
def readDigits? (r : Reading) : List Char → Option (Nat × Nat)
  | [] => if r.anyDigit then some (r.mantissa, r.scale) else none
  | c :: cs =>
    match Text.digit? c with
    | some d =>
      let mantissa := r.mantissa * 10 + d
      let scale := if r.afterPoint then r.scale + 1 else 0
      if Nat.pow 2 96 ≤ mantissa then if r.afterPoint then roundOn? r d cs else none
      else if r.afterPoint && scale == 28 && !cs.isEmpty then
        roundPlace? { r with mantissa := mantissa, scale := scale } cs
      else
        readDigits? ⟨mantissa, scale, r.afterPoint, true, r.wide || decide (wideBound ≤ mantissa)⟩ cs
    | none =>
      if c = '.' ∧ r.afterPoint = false then readDigits? { r with afterPoint := true } cs
      else if c = '_' ∧ r.anyDigit = true then readDigits? r cs
      else none

/-- Take a sign off the front. -/
def splitSign : List Char → Bool × List Char
  | '-' :: cs => (true, cs)
  | '+' :: cs => (false, cs)
  | cs => (false, cs)

/-- Read digits with an optional sign and point. Zero has no sign. -/
def readPlain? (cs : List Char) : Option Decimal := do
  let (negative, cs) := splitSign cs
  let (mantissa, scale) ← readDigits? .start cs
  ofParts? (negative && mantissa != 0) mantissa scale

/-- An exponent has 32 bits. -/
def readExponent? (cs : List Char) : Option Nat :=
  (Text.readUnsigned Text.digit? 10 (Nat.pow 2 32 - 1) cs).toOption

/-- The mantissa with `places` places fewer, a half going up in magnitude. -/
def dropPlaces (places mantissa : Nat) : Nat :=
  (mantissa + Nat.pow 10 places / 2) / Nat.pow 10 places

/-- Move the point to the left, giving up places past the greatest scale. -/
def shiftDown? (d : Decimal) (n : Nat) : Option Decimal :=
  if 28 < n then none
  else if d.scale + n ≤ 28 then ofParts? d.negative d.mantissa (d.scale + n)
  else ofParts? d.negative (dropPlaces (d.scale + n - 28) d.mantissa) 28

/-- Move the point to the right; digits stay as written while there are places to use up. -/
def shiftUp? (d : Decimal) (n : Nat) : Option Decimal :=
  if n ≤ d.scale then ofParts? d.negative d.mantissa (d.scale - n)
  else if 28 < n then none
  else ofParts? d.negative (d.mantissa * Nat.pow 10 (n - d.scale)) 0

/-- Read a number with an exponent. -/
def readScientific? (cs : List Char) : Option Decimal := do
  let (base, exponent) ← Text.cutAt? (fun c => c == 'e' || c == 'E') cs
  let d ← readPlain? base
  match exponent with
  | '-' :: digits => d.shiftDown? (← readExponent? digits)
  | digits => d.shiftUp? (← readExponent? digits)

/-- Read a decimal in either form. -/
def read? (s : String) : Option Decimal :=
  (readPlain? s.toList).or (readScientific? s.toList)

end Taxonomy.Decimal
