import Taxonomy.Decimal.Text
import Taxonomy.Json.Record
import Taxonomy.Json.Writer

/-!
# Constraints of a facet

Bounds, a greatest length, the allowed choices, and how a value may be written. An empty
list of choices allows every value.
-/

namespace Taxonomy

namespace Decimal

/-- A decimal is written as a string, so that its scale is kept. -/
def encode (d : Decimal) : Json :=
  .str d.text

/-- A string, a whole number, or a double by its plain decimal text. -/
def decode? : Json → Option Decimal
  | .str s => read? s
  | .int n => ofInt? n
  | .float x => read? (x.text .plain)
  | _ => none

end Decimal

/-- One allowed value with the label that it is shown by. -/
structure Choice where
  id : String
  label : String
deriving DecidableEq

namespace Choice

def encode (c : Choice) : Json :=
  .obj [("id", .str c.id), ("label", .str c.label)]

def decode? (value : Json) : Option Choice := do
  let r ← Json.Record.ofJson? ["id", "label"] value
  some ⟨← r.required? "id" Json.asString?, ← r.required? "label" Json.asString?⟩

end Choice

/-- The value that a new record starts with. -/
inductive FieldDefault
  /-- A fresh random identifier. -/
  | generateRecordId
deriving DecidableEq

namespace FieldDefault

def tag : FieldDefault → String
  | generateRecordId => "generate_record_id"

def encode (d : FieldDefault) : Json :=
  .str d.tag

def decode? (value : Json) : Option FieldDefault :=
  (Json.variantName? value).bind (fun name =>
    if name = generateRecordId.tag then some generateRecordId else none)

end FieldDefault

/-- The constraints of one facet. -/
structure Constraints where
  min : Option Decimal := none
  max : Option Decimal := none
  /-- The greatest number of characters. -/
  maxLength : Option Nat := none
  choices : List Choice := []
  unique : Bool := false
  /-- The value does not change once it is assigned. -/
  immutable : Bool := false
  editable : Bool := true
  default : Option FieldDefault := none
deriving DecidableEq

namespace Constraints

def fields : List String :=
  ["min", "max", "max_length", "choices", "unique", "immutable", "editable", "default"]

def encode (c : Constraints) : Json :=
  .obj (Json.memberIfSome "min" Decimal.encode c.min ++
    Json.memberIfSome "max" Decimal.encode c.max ++
    Json.memberIfSome "max_length" Json.ofNat c.maxLength ++
    Json.memberIfAny "choices" Choice.encode c.choices ++
    [("unique", .bool c.unique), ("immutable", .bool c.immutable), ("editable", .bool c.editable)] ++
    Json.memberIfSome "default" FieldDefault.encode c.default)

def decode? (value : Json) : Option Constraints := do
  let r ← Json.Record.ofJson? fields value
  some {
    min := ← r.optional? "min" Decimal.decode?
    max := ← r.optional? "max" Decimal.decode?
    maxLength := ← r.optional? "max_length" Json.asLength?
    choices := ← r.defaulted? "choices" [] (Json.asListOf? Choice.decode?)
    unique := ← r.required? "unique" Json.asBool?
    immutable := ← r.required? "immutable" Json.asBool?
    editable := ← r.required? "editable" Json.asBool?
    default := ← r.optional? "default" FieldDefault.decode? }

end Constraints

end Taxonomy
