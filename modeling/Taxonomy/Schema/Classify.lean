import Taxonomy.Schema.Store

/-!
# Classification

The kind of each schema of a store, and the definition behind a name that must be of one
kind. A definition of no shape fails whenever it is asked for; an element whose superclass is not
one of the four categories fails when its category matters.
-/

namespace Taxonomy.Store

/-- The category of an element definition. -/
def categoryOf (name : String) (e : ElementDefinition) : Except TaxonomyError Category :=
  match e.category? with
  | some category => .ok category
  | none => .error (.unknownSuperclass name e.superclass)

/-- The kind of a schema. -/
def classify (s : Store) (name : String) : Except TaxonomyError SchemaKind := do
  match ← s.lookup name with
  | .element e =>
    let _ ← categoryOf name e
    .ok .element
  | .object _ => .ok .object
  | .array _ => .ok .array
  | .unrecognized fault => .error (.malformedSchema name fault)

/-- The definition of an element. -/
def element (s : Store) (name : String) : Except TaxonomyError ElementDefinition := do
  match ← s.lookup name with
  | .element e => .ok e
  | .unrecognized fault => .error (.malformedSchema name fault)
  | _ => .error (.notAnElement name)

/-- The definition of an object. -/
def object (s : Store) (name : String) : Except TaxonomyError ObjectDefinition := do
  match ← s.lookup name with
  | .object o => .ok o
  | .unrecognized fault => .error (.malformedSchema name fault)
  | _ => .error (.notAnObject name)

/-- The primitive category of an element. -/
def superclassOf (s : Store) (name : String) : Except TaxonomyError Category := do
  categoryOf name (← s.element name)

/-- The items of a property that is an array, in place or through a named array schema. -/
def arrayItemsOf? (s : Store) (target : PropertyTarget) : Option String :=
  match target with
  | .array items => some items
  | .schema name =>
    match s.schemas.get? name with
    | some (.array items) => some items
    | _ => none

end Taxonomy.Store
