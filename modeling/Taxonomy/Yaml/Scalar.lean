import Taxonomy.Text.Digits
import Taxonomy.Yaml.Tag
import Taxonomy.Yaml.Value

/-!
# What scalars stand for

A plain scalar is null, a truth value, a number or else a string, by its text alone. Whole
numbers are decimal without leading zeros, or hexadecimal, octal or binary; those that fit 128 bits but
not 64 have no value. A float that is too large is a string.
-/

namespace Taxonomy.Yaml

namespace Scalar

def isNull (s : String) : Bool :=
  ["null", "Null", "NULL", "~"].contains s

def bool? (s : String) : Option Bool :=
  if ["true", "True", "TRUE"].contains s then some true
  else if ["false", "False", "FALSE"].contains s then some false
  else none

def startsSigned : List Char → Bool
  | '+' :: _ => true
  | '-' :: _ => true
  | _ => false

def dropPlus : List Char → List Char
  | '+' :: cs => cs
  | cs => cs

/-- Digits behind a zero, with or without a sign, are no number. -/
def hasLeadingZero (cs : List Char) : Bool :=
  match (if startsSigned cs then cs.drop 1 else cs) with
  | '0' :: d :: ds => (d :: ds).all Text.isDigit
  | _ => false

/-- The number that one digit at least of a base denote. -/
def natural? (base : Nat) (cs : List Char) : Option Nat := do
  if cs.isEmpty then none
  let ds ← cs.mapM Text.hexDigit?
  if ds.all (· < base) then some (Text.ofDigits base ds) else none

/-- A number with a letter for its base, or a decimal one. -/
def magnitude? (leadingZero : Bool) : List Char → Option Nat
  | '0' :: 'x' :: cs => natural? 16 cs
  | '0' :: 'o' :: cs => natural? 8 cs
  | '0' :: 'b' :: cs => natural? 2 cs
  | cs => if leadingZero then none else natural? 10 cs

/-- What a text is among whole numbers. -/
inductive Whole
  | number (n : Int)
  /-- A number that fits 128 bits but not 64. -/
  | tooLarge
  | other

def wholeOf (cs : List Char) : Whole :=
  match cs with
  | '-' :: digits =>
    match magnitude? (hasLeadingZero cs) digits with
    | some n =>
      if n ≤ Nat.pow 2 63 then .number (-n)
      else if n ≤ Nat.pow 2 127 then .tooLarge else .other
    | none => .other
  | cs =>
    match magnitude? (hasLeadingZero cs) (dropPlus cs) with
    | some n =>
      if n < Nat.pow 2 64 then .number n
      else if n < Nat.pow 2 128 then .tooLarge else .other
    | none => .other

/-- The exponent of a float: nothing, or a letter, an optional sign and digits. -/
def exponent? : List Char → Option Int
  | [] => some 0
  | e :: cs =>
    if e = 'e' ∨ e = 'E' then
      match cs with
      | '-' :: cs => (natural? 10 cs).map (fun n => -(n : Int))
      | cs => (natural? 10 (dropPlus cs)).map (fun n => (n : Int))
    else none

/-- A finite float: digits with at most one point, at least one digit in all, and an exponent. -/
def finite? (cs : List Char) : Option Binary64 := do
  let (negative, cs) := match cs with
    | '-' :: cs => (true, cs)
    | cs => (false, cs)
  let (whole, cs) := Text.spanDigits cs.length cs
  let (fraction, cs) := match cs with
    | '.' :: cs => Text.spanDigits cs.length cs
    | cs => ([], cs)
  if whole.isEmpty && fraction.isEmpty then none
  let exponent ← exponent? cs
  Binary64.ofDecimal? negative (Text.ofDigits 10 (whole ++ fraction)) (exponent - fraction.length)

def float? (s : String) : Option Real :=
  let cs := dropPlus s.toList
  if s.toList.head? == some '+' && startsSigned cs then none
  else if [".inf", ".Inf", ".INF"].contains (String.ofList cs) then some (.infinite false)
  else if ["-.inf", "-.Inf", "-.INF"].contains s then some (.infinite true)
  else if [".nan", ".NaN", ".NAN"].contains s then some .notANumber
  else (finite? cs).map .finite

/-- The value of a plain scalar. -/
def plainValue? (s : String) : Option Value :=
  if s = "" ∨ isNull s = true then some .null
  else
    match bool? s with
    | some b => some (.bool b)
    | none =>
      match wholeOf s.toList with
      | .number n => some (.int n)
      | .tooLarge => none
      | .other =>
        if hasLeadingZero s.toList then some (.str s)
        else
          match float? s with
          | some x => some (.float x)
          | none => some (.str s)

/-- The value of a whole number that has a tag which says so. -/
def intValue? (s : String) : Option Value :=
  match wholeOf s.toList with
  | .number n => some (.int n)
  | _ => none

/-- The value of a scalar without a tag. Quoting makes it a string. -/
def untagged? (s : String) (plain : Bool) : Option Value :=
  if plain then plainValue? s else some (.str s)

/-- The value of a scalar. A tag that is kept does not change how the scalar is read. -/
def value? (tag : Option Tag) (s : String) (plain : Bool) : Option Value :=
  match tag with
  | none => untagged? s plain
  | some tag =>
    match tag with
    | .own name => (untagged? s plain).map (.tagged name)
    | .unreadable => untagged? s plain
    | .bool => (bool? s).map .bool
    | .int => intValue? s
    | .float => (float? s).map .float
    | .null => if isNull s then some .null else none
    | .other => some (.str s)

end Scalar

end Taxonomy.Yaml
