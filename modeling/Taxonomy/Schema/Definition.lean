import Taxonomy.Error
import Taxonomy.NameMap
import Taxonomy.Text.Split

/-!
# Schema definitions

A named schema is an element, an object or an array. An element is a reference to a
superclass with details that name an item type; an object has properties and may extend another
object; an array has one schema of items. A definition of another shape is kept with the reason why,
so that only what uses it fails.
-/

namespace Taxonomy

/-- The primitive category an element inherits. -/
inductive Category
  | boolean
  | integer
  | number
  | string
deriving DecidableEq

namespace Category

def all : List Category := [boolean, integer, number, string]

def name : Category → String
  | boolean => "Boolean"
  | integer => "Integer"
  | number => "Number"
  | string => "String"

/-- What the names of the primitive superclass schemas begin with. -/
def schemaStart : String := "TaxonomyElement"

/-- The name of the primitive superclass schema. -/
def referenceName (c : Category) : String :=
  schemaStart ++ c.name

/-- The category of a superclass by its schema name or its bare name. -/
def ofReference? (reference : String) : Option Category :=
  let cs := reference.toList
  let bare := (Text.dropStart? schemaStart.toList cs).getD cs
  all.find? (fun c => c.name.toList == bare)

/-- Whether a schema of this name is one of the four primitives and so not a schema in its own right. -/
def isPrimitiveSchema (name : String) : Bool :=
  (Text.dropStart? schemaStart.toList name.toList).isSome && (ofReference? name).isSome

end Category

/-- The three shapes of schemas. -/
inductive SchemaKind
  | element
  | object
  | array
deriving DecidableEq

def SchemaKind.name : SchemaKind → String
  | element => "element"
  | object => "object"
  | array => "array"

/-- A leaf value: a superclass reference and details. -/
structure ElementDefinition where
  superclass : String
  description : String
  itemType : String
  itemTypeGroup : Option String
deriving DecidableEq

/-- The primitive category of an element, if its superclass is one of the four. -/
def ElementDefinition.category? (e : ElementDefinition) : Option Category :=
  Category.ofReference? e.superclass

/-- What a property points at: a named schema, or an array written in place. -/
inductive PropertyTarget
  | schema (name : String)
  | array (items : String)
deriving DecidableEq

/-- A property of an object. -/
structure PropertyDefinition where
  name : String
  target : PropertyTarget
deriving DecidableEq

/-- A composite, its properties ascending by name. -/
structure ObjectDefinition where
  parent : Option String
  description : String
  properties : List PropertyDefinition
deriving DecidableEq

/-- A parsed definition. -/
inductive SchemaDefinition
  | element (definition : ElementDefinition)
  | object (definition : ObjectDefinition)
  | array (items : String)
  | unrecognized (fault : ShapeFault)

namespace SchemaDefinition

/-- The schema a reference names: what follows the last slash. -/
def referencedName (reference : String) : String :=
  String.ofList (Text.afterLast '/' reference.toList)

/-- The schema that the reference of a value names, if it has one. -/
def reference? (value : Json) : Option String :=
  (value.getString? "$ref").map referencedName

/-- The items of an array written in place. -/
def arrayItems? (value : Json) : Option String :=
  if value.getString? "type" = some "array" then (value.get? "items").bind reference? else none

/-- The description of a value, empty if it has none. -/
def descriptionOf (value : Json) : String :=
  (value.getString? "description").getD ""

/-- The item type that details name, under either of two keys. -/
def itemTypeName? (details : Json) : Option String :=
  (details.getString? "x-ob-item-type").or (details.getString? "item-type")

/-- The group that details name, under either of two keys; an empty name is no group. -/
def itemTypeGroupName? (details : Json) : Option String :=
  ((details.getString? "x-ob-item-type-group").or
    (details.getString? "item-type-group")).filter (fun name => name != "")

/-- The target of a property. A body that is neither a reference nor an array stands for the schema
of the property's own name. -/
def propertyTarget (name : String) (body : Json) : PropertyTarget :=
  match reference? body with
  | some schema => .schema schema
  | none =>
    match arrayItems? body with
    | some items => .array items
    | none => .schema name

/-- The properties of a map of bodies, ascending by name. -/
def propertiesOf (members : List (String × Json)) : List PropertyDefinition :=
  (NameMap.ofList members).entries.map (fun e => ⟨e.1, propertyTarget e.1 e.2⟩)

/-- An object with a description and, if present, a map of properties. -/
def objectOf (parent : Option String) (value : Json) : SchemaDefinition :=
  match value.get? "properties" with
  | none => .object ⟨parent, descriptionOf value, []⟩
  | some (.obj members) => .object ⟨parent, descriptionOf value, propertiesOf members⟩
  | some _ => .unrecognized .properties

/-- The definition of a superclass reference and a details block. -/
def ofParts (name : String) (superclass : String) (details : Json) : SchemaDefinition :=
  match itemTypeName? details with
  | some itemType =>
    .element ⟨superclass, descriptionOf details, itemType, itemTypeGroupName? details⟩
  | none =>
    if (Category.ofReference? superclass).isSome then .unrecognized (.noItemType name)
    else objectOf (some superclass) details

/-- The definition of an `allOf` list. -/
def ofAllOf (name : String) (allOf : Json) : SchemaDefinition :=
  match allOf with
  | .arr [first, details] =>
    match reference? first, details with
    | none, _ => .unrecognized .allOfReference
    | some superclass, .obj members => ofParts name superclass (.obj members)
    | some _, _ => .unrecognized .allOfDetails
  | _ => .unrecognized .allOfParts

/-- Parse one entry of the schemas of a document. -/
def ofJson (name : String) (value : Json) : SchemaDefinition :=
  match value with
  | .obj members =>
    let value := Json.obj members
    match value.get? "allOf" with
    | some allOf => ofAllOf name allOf
    | none =>
      if value.getString? "type" = some "array" then
        match arrayItems? value with
        | some items => .array items
        | none => .unrecognized .arrayItems
      else if (value.get? "properties").isSome || value.getString? "type" = some "object" then
        objectOf none value
      else .unrecognized .noShape
  | _ => .unrecognized .notAnObject

end SchemaDefinition

end Taxonomy
