import Taxonomy.ItemType
import Taxonomy.Json.Record

/-!
# Item types as JSON

An item type is tagged with its variant. Reading accepts what writing produces, with fields
in any order.
-/

namespace Taxonomy

namespace ItemTypeValue

def encode (v : ItemTypeValue) : Json :=
  .obj [("id", .str v.id), ("label", .str v.label), ("description", .str v.description)]

def decode? (value : Json) : Option ItemTypeValue := do
  let r ← Json.Record.ofJson? ["id", "label", "description"] value
  some {
    id := ← r.required? "id" Json.asString?
    label := ← r.required? "label" Json.asString?
    description := ← r.required? "description" Json.asString? }

end ItemTypeValue

namespace ItemType

/-- The members that every variant has. -/
def commonMembers (variant name description : String) : List (String × Json) :=
  [("variant", .str variant), ("name", .str name), ("description", .str description)]

def encode : ItemType → Json
  | plain name description => .obj (commonMembers "plain" name description)
  | enumerated name description values =>
    .obj (commonMembers "enumerated" name description ++
      [("values", .arr (values.map ItemTypeValue.encode))])
  | unit name description values =>
    .obj (commonMembers "unit" name description ++
      [("values", .arr (values.map ItemTypeValue.encode))])

/-- A variant with values. -/
def decodeValued? (make : String → String → List ItemTypeValue → ItemType) (body : Json) :
    Option ItemType := do
  let r ← Json.Record.ofJson? ["name", "description", "values"] body
  some (make (← r.required? "name" Json.asString?) (← r.required? "description" Json.asString?)
    (← r.required? "values" (Json.asListOf? ItemTypeValue.decode?)))

def decodePlain? (body : Json) : Option ItemType := do
  let r ← Json.Record.ofJson? ["name", "description"] body
  some (.plain (← r.required? "name" Json.asString?) (← r.required? "description" Json.asString?))

def decode? (value : Json) : Option ItemType := do
  let (variant, body) ← Json.tagged? "variant" value
  match variant with
  | "plain" => decodePlain? body
  | "enumerated" => decodeValued? .enumerated body
  | "unit" => decodeValued? .unit body
  | _ => none

end ItemType

namespace ItemTypeGroup

def encode (g : ItemTypeGroup) : Json :=
  .obj [("name", .str g.name), ("item_type", .str g.itemType), ("description", .str g.description),
    ("ids", .arr (g.ids.map .str))]

def decode? (value : Json) : Option ItemTypeGroup := do
  let r ← Json.Record.ofJson? ["name", "item_type", "description", "ids"] value
  some {
    name := ← r.required? "name" Json.asString?
    itemType := ← r.required? "item_type" Json.asString?
    description := ← r.required? "description" Json.asString?
    ids := ← r.required? "ids" (Json.asListOf? Json.asString?) }

end ItemTypeGroup

end Taxonomy
