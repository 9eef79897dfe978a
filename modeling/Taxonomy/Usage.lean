import Taxonomy.Json.Record
import Taxonomy.Schema.Classify

/-!
# Array usages

An object uses a schema when one of its array properties holds items of that schema. The
relation is written from owner to item; here it is turned round, for some candidates or for a whole
document. Relations are kept in the order of owner, target and property, each once.
-/

namespace Taxonomy

/-- The owner holds items of the target in a property. -/
structure UsageRelation where
  owner : String
  target : String
  property : String
deriving DecidableEq

namespace UsageRelation

/-- Whether one relation comes strictly before another: by owner, then target, then property. -/
def isBefore (a b : UsageRelation) : Bool :=
  Text.before a.owner b.owner || (a.owner == b.owner &&
    (Text.before a.target b.target || (a.target == b.target &&
      Text.before a.property b.property)))

/-- Put a relation in its place among ordered ones, unless it is there already. -/
def insertInto (r : UsageRelation) : List UsageRelation → List UsageRelation
  | [] => [r]
  | other :: rest =>
    if r = other then other :: rest
    else if r.isBefore other then r :: other :: rest
    else other :: insertInto r rest

def encode (r : UsageRelation) : Json :=
  .obj [("owner", .str r.owner), ("target", .str r.target), ("property", .str r.property)]

def decode? (value : Json) : Option UsageRelation := do
  let r ← Json.Record.ofJson? ["owner", "target", "property"] value
  some {
    owner := ← r.required? "owner" Json.asString?
    target := ← r.required? "target" Json.asString?
    property := ← r.required? "property" Json.asString? }

end UsageRelation

namespace Store

/-- The array properties of an object with their items. -/
def arrayProperties (s : Store) (definition : ObjectDefinition) : List (String × String) :=
  definition.properties.filterMap (fun p => (s.arrayItemsOf? p.target).map (fun items => (p.name, items)))

/-- The candidates that are objects and use a target, as a set of names. -/
def owners (s : Store) (target : String) : List String → Except TaxonomyError (NameMap Unit)
  | [] => .ok .empty
  | candidate :: rest =>
    match s.object candidate with
    | .ok definition => do
      let others ← owners s target rest
      if (s.arrayProperties definition).any (fun p => p.2 == target) then
        return others.insert candidate ()
      else return others
    | .error (.notAnObject _) => owners s target rest
    | .error e => .error e

/-- The names of the candidates that use a target, ascending. A candidate that is not an object uses
nothing. -/
def usagesOf (s : Store) (target : String) (candidates : List String) :
    Except TaxonomyError (List String) :=
  (s.owners target candidates).map NameMap.names

end Store

/-- The relations of a document under their targets. -/
structure UsageIndex where
  byTarget : NameMap (List UsageRelation)
deriving DecidableEq

namespace UsageIndex

def empty : UsageIndex := ⟨.empty⟩

/-- Add a relation under its target. -/
def add (index : UsageIndex) (r : UsageRelation) : UsageIndex :=
  ⟨index.byTarget.alter r.target (fun relations => r.insertInto (relations.getD []))⟩

/-- The relations of one schema as an owner, in property order. -/
def relationsFrom (s : Store) (owner : String) : SchemaDefinition → List UsageRelation
  | .object definition => (s.arrayProperties definition).map (fun p => ⟨owner, p.2, p.1⟩)
  | _ => []

/-- The index of a whole document. -/
def build (s : Store) : UsageIndex :=
  (s.schemas.entries.flatMap (fun e => relationsFrom s e.1 e.2)).foldl add empty

/-- The relations of one target, by owner and property. -/
def relationsOf (index : UsageIndex) (target : String) : List UsageRelation :=
  (index.byTarget.get? target).getD []

/-- The names of the owners of a target, ascending. -/
def ownersOf (index : UsageIndex) (target : String) : List String :=
  ((index.relationsOf target).foldl (fun names r => names.insert r.owner ()) NameMap.empty).names

/-- All relations, by target, owner and property. -/
def relations (index : UsageIndex) : List UsageRelation :=
  index.byTarget.entries.flatMap (·.2)

def isEmpty (index : UsageIndex) : Bool :=
  index.byTarget.isEmpty

def encode (index : UsageIndex) : Json :=
  .obj [("by_target", .obj (index.byTarget.entries.map (fun e =>
    (e.1, .arr (e.2.map UsageRelation.encode)))))]

/-- Read the relations of one target, which may come in any order and more than once. -/
def decodeRelations? (value : Json) : Option (List UsageRelation) :=
  (Json.asListOf? UsageRelation.decode? value).map (fun rs =>
    rs.foldl (fun ordered r => r.insertInto ordered) [])

def decodeTargets? : Json → Option (NameMap (List UsageRelation))
  | .obj members => do
    let entries ← members.mapM (fun m => (decodeRelations? m.2).map (fun rs => (m.1, rs)))
    some (NameMap.ofList entries)
  | _ => none

def decode? (value : Json) : Option UsageIndex := do
  let r ← Json.Record.ofJson? ["by_target"] value
  some ⟨← r.required? "by_target" decodeTargets?⟩

end UsageIndex

end Taxonomy
