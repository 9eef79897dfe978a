import Taxonomy.Element.Overrides
import Taxonomy.ItemType.Encoding
import Taxonomy.Schema.Classify
import Taxonomy.Schema.Encoding

/-!
# Compiled elements

An element compiles to its facets in order. The category decides which facets there are and
the kind of the value; the item type, narrowed to the element's group, adds a unit or the choices of
an enumeration; a few item types bound their numbers or change the kind of a string. Overrides touch
the value only.
-/

namespace Taxonomy

/-- An element with its facets. -/
structure CompiledElement where
  name : String
  description : String
  superclass : Category
  /-- The item type narrowed to the group. -/
  itemType : ItemType
  itemTypeGroup : Option String
  facets : List FieldDescriptor
deriving DecidableEq

namespace CompiledElement

def facet? (e : CompiledElement) (facet : Facet) : Option FieldDescriptor :=
  e.facets.find? (fun f => f.facet == facet)

/-- The facet of the value itself. -/
def value? (e : CompiledElement) : Option FieldDescriptor :=
  e.facet? .value

def facetNames (e : CompiledElement) : List Facet :=
  e.facets.map (·.facet)

/-- The greatest length of free text. -/
def freeTextLength : Nat := 500

/-- A whole number that is not negative. -/
def countField (element : String) (facet : Facet) : FieldDescriptor :=
  { FieldDescriptor.plain element facet .integer with constraints := { min := some (.ofNat 0) } }

/-- The number of characters of the longest id, if there is one. -/
def longest : List ItemTypeValue → Option Nat
  | [] => none
  | v :: rest => some (max v.id.length ((longest rest).getD 0))

/-- A string that is one of the ids of an item type. -/
def choiceField (element : String) (facet : Facet) (itemType : ItemType) : FieldDescriptor :=
  { FieldDescriptor.plain element facet .string with
    constraints := {
      maxLength := longest itemType.values
      choices := itemType.values.map (fun v => ⟨v.id, v.label⟩) } }

/-- The bounds of a number. Durations, lengths and masses are not negative, and percentages lie
between zero and a hundred. -/
def numberConstraints (itemType : String) : Constraints :=
  match itemType with
  | "Duration" | "Length" | "Mass" => { min := some (.ofNat 0) }
  | "Percent" => { min := some (.ofNat 0), max := some (.ofNat 100) }
  | _ => {}

/-- An identifier that is made with its record and kept. -/
def identifierField (element : String) : FieldDescriptor :=
  { FieldDescriptor.plain element .value .uuid with
    nullable := false
    constraints := {
      unique := true, immutable := true, editable := false, default := some .generateRecordId } }

/-- The value of a string element. -/
def stringField (element : String) (itemType : ItemType) : FieldDescriptor :=
  match itemType.name with
  | "Date" => .plain element .value .date
  | "UUID" => identifierField element
  | _ =>
    if itemType.hasEnums then choiceField element .value itemType
    else
      { FieldDescriptor.plain element .value .string with
        constraints := { maxLength := some freeTextLength } }

/-- The value of an element of a category. -/
def valueField (element : String) (category : Category) (itemType : ItemType) : FieldDescriptor :=
  match category with
  | .boolean => .plain element .value .boolean
  | .integer =>
    if itemType.name = "Duration" then countField element .value
    else .plain element .value .integer
  | .number =>
    { FieldDescriptor.plain element .value .fixedDecimal with
      constraints := numberConstraints itemType.name }
  | .string => stringField element itemType

/-- The facets of an element as they are added: its times, the digits of a number, the unit, and the
value with its overrides. -/
def addedFacets (element : String) (category : Category) (itemType : ItemType)
    (overrides : ValueOverrides) : List FieldDescriptor :=
  let times : List FieldDescriptor :=
    [.plain element .endTime .dateTime, .plain element .startTime .dateTime]
  let digits :=
    if category = .number then [countField element .decimals, countField element .precision] else []
  let unit :=
    if (category = .integer ∨ category = .number) ∧ itemType.hasUnits = true then
      [choiceField element .unit itemType]
    else []
  times ++ digits ++ unit ++ [overrides.apply (valueField element category itemType)]

/-- The facets of an element in order. The sort is stable. -/
def orderedFacets (element : String) (category : Category) (itemType : ItemType)
    (overrides : ValueOverrides) : List FieldDescriptor :=
  (addedFacets element category itemType overrides).mergeSort
    (fun f g => f.facet.place ≤ g.facet.place)

def fields : List String :=
  ["name", "description", "superclass", "item_type", "item_type_group", "facets"]

def encode (e : CompiledElement) : Json :=
  .obj ([("name", .str e.name), ("description", .str e.description),
    ("superclass", e.superclass.encode), ("item_type", e.itemType.encode)] ++
    Json.memberIfSome "item_type_group" Json.str e.itemTypeGroup ++
    [("facets", .arr (e.facets.map FieldDescriptor.encode))])

def decode? (value : Json) : Option CompiledElement := do
  let r ← Json.Record.ofJson? fields value
  some {
    name := ← r.required? "name" Json.asString?
    description := ← r.required? "description" Json.asString?
    superclass := ← r.required? "superclass" Category.decode?
    itemType := ← r.required? "item_type" ItemType.decode?
    itemTypeGroup := ← r.optional? "item_type_group" Json.asString?
    facets := ← r.required? "facets" (Json.asListOf? FieldDescriptor.decode?) }

end CompiledElement

/-- Compile the element of a name. -/
def Store.compileElement (s : Store) (name : String) (overrides : ValueOverrides) :
    Except TaxonomyError CompiledElement := do
  let definition ← s.element name
  let category ← s.superclassOf name
  let itemType ← s.itemType definition.itemType
  let group ← s.itemTypeGroup definition.itemTypeGroup
  let narrowed := itemType.grouped group
  return {
    name := name
    description := definition.description
    superclass := category
    itemType := narrowed
    itemTypeGroup := definition.itemTypeGroup
    facets := CompiledElement.orderedFacets name category narrowed overrides }

end Taxonomy
