import Taxonomy.Registry

/-!
# Rendering records

A record is rendered through its compiled object: each element becomes a group of its
facets, each nested object an object or null, each array a list. Values are found by column name.
Pending edits stand in for stored values of the record itself, not of the records below it.
Rendering goes down the record, so it ends even where arrays make schemas contain themselves.
-/

namespace Taxonomy

/-- A stored record: values by column, the record of each nested object, the records of each array. -/
inductive Record where
  | mk (values : List (String × FacetValue)) (nested : List (String × Record))
      (arrays : List (String × List Record))

/-- Values by column that have not been approved yet. -/
abbrev PendingEdits : Type := List (String × Json)

namespace CompiledElement

/-- The facets of a record. A pending value comes before a stored one, and what is absent is
null. -/
def render (e : CompiledElement) (values : List (String × FacetValue)) (edits : PendingEdits) : Json :=
  let valueOf (f : FieldDescriptor) : Json :=
    ((Entries.lookup f.columnName edits).or
      ((Entries.lookup f.columnName values).map FacetValue.toJson)).getD .null
  .obj (e.facets.foldl (fun members f => Entries.set f.facet.name (valueOf f) members) [])

end CompiledElement

namespace Record

/-- The way to render one record as any object. -/
abbrev Rendering : Type := CompiledObject → Except TaxonomyError Json

/-- The rendered nested objects, null where there is no record. -/
def renderObjects (nested : List (String × Rendering)) :
    List (String × CompiledObject) → Except TaxonomyError (List (String × Json))
  | [] => .ok []
  | (property, o) :: rest => do
    let value ← match Entries.lookup property nested with
      | some render => render o
      | none => .ok .null
    return (property, value) :: (← renderObjects nested rest)

/-- The rendered records of one array. -/
def renderItems (o : CompiledObject) : List Rendering → Except TaxonomyError (List Json)
  | [] => .ok []
  | render :: rest => do return (← render o) :: (← renderItems o rest)

/-- The rendered arrays. Their items must be registered objects even if there are no records. -/
def renderArrays (registry : Registry) (arrays : List (String × List Rendering)) :
    List ArrayUsage → Except TaxonomyError (List (String × Json))
  | [] => .ok []
  | usage :: rest => do
    let o ← registry.object usage.items
    let items ← renderItems o ((Entries.lookup usage.property arrays).getD [])
    return (usage.property, .arr items) :: (← renderArrays registry arrays rest)

/-- The rendered object whose record has these values and these records below it. -/
def renderWith (registry : Registry) (values : List (String × FacetValue))
    (nested : List (String × Rendering)) (arrays : List (String × List Rendering))
    (edits : PendingEdits) (o : CompiledObject) : Except TaxonomyError Json := do
  let elements := o.elements.map (fun e => (e.1, e.2.render values edits))
  let objects ← renderObjects nested o.objects
  let lists ← renderArrays registry arrays o.arrays
  return .obj ((elements ++ objects ++ lists).foldl
    (fun members m => Entries.set m.1 m.2 members) [])

mutual

/-- Render a record as an object. -/
def render (registry : Registry) (edits : PendingEdits) : Record → Rendering
  | mk values nested arrays => fun o =>
    renderWith registry values (nestedRenderings registry nested) (arrayRenderings registry arrays)
      edits o

def nestedRenderings (registry : Registry) : List (String × Record) → List (String × Rendering)
  | [] => []
  | (property, record) :: rest =>
    (property, render registry [] record) :: nestedRenderings registry rest

def arrayRenderings (registry : Registry) :
    List (String × List Record) → List (String × List Rendering)
  | [] => []
  | (property, records) :: rest =>
    (property, itemRenderings registry records) :: arrayRenderings registry rest

def itemRenderings (registry : Registry) : List Record → List Rendering
  | [] => []
  | record :: rest => render registry [] record :: itemRenderings registry rest

end

end Record

end Taxonomy
