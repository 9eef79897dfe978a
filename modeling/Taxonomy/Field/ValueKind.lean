import Taxonomy.Json.Record

/-!
# Kinds of values

The kind of a facet's values. A decimal kind limits the digits before and after the point:
at most `decimalPlaces` after it, and at most `maxDigits` in all when those places are filled.
-/

namespace Taxonomy

/-- The kind of the values of a facet. -/
inductive ValueKind
  | boolean
  | integer
  | decimal (maxDigits decimalPlaces : UInt32)
  | date
  | dateTime
  | string
  /-- An identifier made when the record is created. -/
  | uuid
deriving DecidableEq

namespace ValueKind

/-- The decimals of number facets. -/
def fixedDecimal : ValueKind := decimal 24 8

/-- The name of a kind in messages and listings. -/
def name : ValueKind → String
  | boolean => "boolean"
  | integer => "integer"
  | decimal _ _ => "decimal"
  | date => "date"
  | dateTime => "datetime"
  | string => "string"
  | uuid => "uuid"

/-- A word of 32 bits as JSON. -/
def encodeWord (n : UInt32) : Json :=
  .int n.toNat

def decodeWord? : Json → Option UInt32
  | .int n => if 0 ≤ n ∧ n < Nat.pow 2 32 then some (UInt32.ofNat n.toNat) else none
  | _ => none

def encode : ValueKind → Json
  | boolean => .obj [("type", .str "boolean")]
  | integer => .obj [("type", .str "integer")]
  | decimal maxDigits decimalPlaces =>
    .obj [("type", .str "decimal"), ("max_digits", encodeWord maxDigits),
      ("decimal_places", encodeWord decimalPlaces)]
  | date => .obj [("type", .str "date")]
  | dateTime => .obj [("type", .str "date_time")]
  | string => .obj [("type", .str "string")]
  | uuid => .obj [("type", .str "uuid")]

/-- The limits of a decimal kind. -/
def decodeDecimal? (body : Json) : Option ValueKind := do
  let r ← Json.Record.ofJson? ["max_digits", "decimal_places"] body
  some (.decimal (← r.required? "max_digits" decodeWord?) (← r.required? "decimal_places" decodeWord?))

/-- The kinds without limits, by tag. -/
def ofTag? : String → Option ValueKind
  | "boolean" => some boolean
  | "integer" => some integer
  | "date" => some date
  | "date_time" => some dateTime
  | "string" => some string
  | "uuid" => some uuid
  | _ => none

def decode? (value : Json) : Option ValueKind := do
  let (tag, body) ← Json.tagged? "type" value
  if tag = "decimal" then decodeDecimal? body
  else
    let _ ← Json.Record.ofJson? [] body
    ofTag? tag

end ValueKind

end Taxonomy
