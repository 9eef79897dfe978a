import Taxonomy.Schema.Definition

/-!
# The store of a document

A document holds schemas, item types and item-type groups by name, in one of two layouts.
Schemas are parsed when the document loads, the other two are kept as they are written. The four
primitive superclass schemas are not loaded.
-/

namespace Taxonomy

/-- The content of a loaded document and the file it came from, if any. -/
structure Store where
  source : Option String
  schemas : NameMap SchemaDefinition
  itemTypes : NameMap Json
  itemTypeGroups : NameMap Json

namespace Store

/-- A part of a document as a map, under the name that messages use. -/
def namedMap (part : String) (value : Json) : Except LoadFault (NameMap Json) :=
  match value with
  | .obj members => .ok (NameMap.ofList members)
  | _ => .error (.notAnObject part)

/-- The schemas of either layout. -/
def schemasPart? (root : Json) : Option Json :=
  (root.get? "schemas").or ((root.get? "components").bind (fun c => c.get? "schemas"))

/-- The parsed definitions of a map of schemas, without the primitive superclasses. -/
def parseSchemas (entries : NameMap Json) : NameMap SchemaDefinition :=
  (entries.filterNames (fun name => !Category.isPrimitiveSchema name)).mapWithName
    SchemaDefinition.ofJson

/-- A part that may be absent. -/
def optionalMap (part : String) (value : Option Json) : Except LoadFault (NameMap Json) :=
  match value with
  | none => .ok .empty
  | some value => namedMap part value

/-- The store of a JSON value. -/
def ofJson (root : Json) : Except LoadFault Store := do
  let root ← match root with
    | .obj members => .ok (Json.obj members)
    | _ => .error .rootNotAnObject
  let schemas ← match schemasPart? root with
    | some value => namedMap "schemas" value
    | none => .error .noSchemas
  let itemTypes ← optionalMap "item-types"
    ((root.get? "item-types").or (root.get? "x-ob-item-types"))
  let itemTypeGroups ← optionalMap "item-type-groups"
    ((root.get? "item-type-groups").or (root.get? "x-ob-item-type-groups"))
  .ok ⟨none, parseSchemas schemas, itemTypes, itemTypeGroups⟩

/-- The path that errors name when there is no file. -/
def inlinePath : String := "<inline>"

/-- Name the file in a fault. -/
def atPath (path : String) (result : Except LoadFault α) : Except TaxonomyError α :=
  result.mapError (TaxonomyError.load path)

/-- The store of a JSON value that came from no file. -/
def ofValue (root : Json) : Except TaxonomyError Store :=
  atPath inlinePath (ofJson root)

/-- The definition of a declared schema. -/
def lookup (s : Store) (name : String) : Except TaxonomyError SchemaDefinition :=
  match s.schemas.get? name with
  | some definition => .ok definition
  | none => .error (.unknownSchema name)

def contains (s : Store) (name : String) : Bool :=
  s.schemas.contains name

end Store

end Taxonomy
