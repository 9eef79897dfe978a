import Taxonomy.Json.Record
import Taxonomy.Schema.Definition

/-!
# Categories and schema kinds as JSON

Both are written as their names.
-/

namespace Taxonomy

namespace Category

def encode (c : Category) : Json :=
  .str c.name

def decode? (value : Json) : Option Category :=
  (Json.variantName? value).bind (fun name => all.find? (fun c => c.name == name))

end Category

namespace SchemaKind

def all : List SchemaKind := [element, object, array]

def encode (k : SchemaKind) : Json :=
  .str k.name

/-- The kind of a name. -/
def ofName? (name : String) : Option SchemaKind :=
  all.find? (fun k => k.name == name)

def decode? (value : Json) : Option SchemaKind :=
  (Json.variantName? value).bind ofName?

end SchemaKind

end Taxonomy
