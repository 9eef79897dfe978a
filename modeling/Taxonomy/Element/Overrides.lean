import Taxonomy.Field.Descriptor

/-!
# Overrides of a value

What one use of an element changes about its value: the greatest length, whether it may be
edited, and whether it is unique. What is absent stays as compiled.
-/

namespace Taxonomy

/-- Adjustments to the value of an element. -/
structure ValueOverrides where
  maxLength : Option Nat := none
  editable : Option Bool := none
  unique : Option Bool := none
deriving DecidableEq

namespace ValueOverrides

/-- No adjustment. -/
def unchanged : ValueOverrides := {}

def apply (o : ValueOverrides) (f : FieldDescriptor) : FieldDescriptor :=
  { f with constraints := { f.constraints with
      maxLength := o.maxLength.or f.constraints.maxLength
      editable := o.editable.getD f.constraints.editable
      unique := o.unique.getD f.constraints.unique } }

def fields : List String := ["max_length", "editable", "unique"]

def encode (o : ValueOverrides) : Json :=
  .obj (Json.memberIfSome "max_length" Json.ofNat o.maxLength ++
    Json.memberIfSome "editable" Json.bool o.editable ++
    Json.memberIfSome "unique" Json.bool o.unique)

def decode? (value : Json) : Option ValueOverrides := do
  let r ← Json.Record.ofJson? fields value
  some {
    maxLength := ← r.omissible? "max_length" Json.asLength?
    editable := ← r.omissible? "editable" Json.asBool?
    unique := ← r.omissible? "unique" Json.asBool? }

end ValueOverrides

end Taxonomy
