import Taxonomy.Composition.Compiler
import Taxonomy.ProductKind
import Taxonomy.Usage

/-!
# Registries

A registry holds every schema of a document in compiled form, together with the index of
array usages. One compiler compiles all of them in name order, without overrides; the first failure
leaves no registry.
-/

namespace Taxonomy

/-- Every schema of a document in compiled form. -/
structure Registry where
  elements : NameMap CompiledElement
  objects : NameMap CompiledObject
  /-- The items of each array schema. -/
  arrays : NameMap String
  usages : UsageIndex

namespace Registry

def empty : Registry := ⟨.empty, .empty, .empty, .empty⟩

/-- Compile one schema into a registry. -/
def addSchema (s : Store) (registry : Registry) (name : String) :
    SchemaDefinition → Remembering Registry
  | .element _ => do
    let e ← s.compileElementOnce name .unchanged
    return { registry with elements := registry.elements.insert name e }
  | .object _ => do
    let o ← s.compile name .empty
    return { registry with objects := registry.objects.insert name o }
  | .array items => return { registry with arrays := registry.arrays.insert name items }
  | .unrecognized fault => .ofExcept (.error (.malformedSchema name fault))

/-- Compile several schemas into a registry. -/
def addSchemas (s : Store) (registry : Registry) :
    List (String × SchemaDefinition) → Remembering Registry
  | [] => return registry
  | (name, definition) :: rest => do
    addSchemas s (← addSchema s registry name definition) rest

/-- The registry of a document. -/
def build (s : Store) : Except TaxonomyError Registry := do
  let registry ← (addSchemas s empty s.schemas.entries {}).1
  return { registry with usages := .build s }

def kindOf? (r : Registry) (name : String) : Option SchemaKind :=
  if r.elements.contains name then some .element
  else if r.objects.contains name then some .object
  else if r.arrays.contains name then some .array
  else none

/-- What is wrong with a name that is not of the kind asked for. -/
def misnamed (r : Registry) (name : String) (otherKind : String → TaxonomyError) : TaxonomyError :=
  match r.kindOf? name with
  | some _ => otherKind name
  | none => .unknownSchema name

def element (r : Registry) (name : String) : Except TaxonomyError CompiledElement :=
  match r.elements.get? name with
  | some e => .ok e
  | none => .error (r.misnamed name .notAnElement)

def object (r : Registry) (name : String) : Except TaxonomyError CompiledObject :=
  match r.objects.get? name with
  | some o => .ok o
  | none => .error (r.misnamed name .notAnObject)

/-- The object that products of a kind are stored as. -/
def product (r : Registry) (kind : ProductKind) : Except TaxonomyError CompiledObject :=
  r.object kind.schemaName

/-- The items of a named array schema. -/
def arrayItems? (r : Registry) (name : String) : Option String :=
  r.arrays.get? name

/-- The objects that use a target in an array property, ascending. -/
def usagesOf (r : Registry) (target : String) : List String :=
  r.usages.ownersOf target

end Registry

end Taxonomy
