import Taxonomy.Schema.Store

/-!
# Item types and their groups

An item type is the domain of an element's value: enumerated, with units, or plain. A group
narrows its values to the ids it lists; the values keep their order, and ids that the item type does
not have contribute nothing.
-/

namespace Taxonomy

/-- One enumerated value or unit. -/
structure ItemTypeValue where
  id : String
  label : String
  description : String
deriving DecidableEq

/-- The domain of a value. -/
inductive ItemType
  | plain (name description : String)
  | enumerated (name description : String) (values : List ItemTypeValue)
  | unit (name description : String) (values : List ItemTypeValue)
deriving DecidableEq

/-- A subset of the ids of an item type. -/
structure ItemTypeGroup where
  name : String
  itemType : String
  description : String
  ids : List String
deriving DecidableEq

namespace ItemType

def name : ItemType → String
  | plain name _ | enumerated name _ _ | unit name _ _ => name

def description : ItemType → String
  | plain _ description | enumerated _ description _ | unit _ description _ => description

/-- The values in document order, none for a plain item type. -/
def values : ItemType → List ItemTypeValue
  | plain _ _ => []
  | enumerated _ _ values | unit _ _ values => values

/-- Enumerated with at least one value. -/
def hasEnums : ItemType → Bool
  | enumerated _ _ values => !values.isEmpty
  | _ => false

/-- Given in units, at least one of them. -/
def hasUnits : ItemType → Bool
  | unit _ _ values => !values.isEmpty
  | _ => false

/-- The item type with other values in place of its own. -/
def withValues (values : List ItemTypeValue) : ItemType → ItemType
  | plain name description => plain name description
  | enumerated name description _ => enumerated name description values
  | unit name description _ => unit name description values

/-- The values whose ids a group lists, or all without a group. -/
def groupedValues (t : ItemType) (group : Option ItemTypeGroup) : List ItemTypeValue :=
  match group with
  | none => t.values
  | some group => t.values.filter (fun v => group.ids.contains v.id)

/-- The item type narrowed to a group. -/
def grouped (t : ItemType) (group : Option ItemTypeGroup) : ItemType :=
  t.withValues (t.groupedValues group)

/-- The values of a map of ids. A value without a label is labelled with its id. -/
def valuesOf (members : List (String × Json)) : List ItemTypeValue :=
  members.map (fun e =>
    ⟨e.1, (e.2.getString? "label").getD e.1, SchemaDefinition.descriptionOf e.2⟩)

/-- The values under a key of an entry. -/
def parseValues (itemType key : String) (value : Json) :
    Except TaxonomyError (List ItemTypeValue) :=
  match value with
  | .obj members => .ok (valuesOf members)
  | _ => .error (.malformedSchema itemType (.values key))

/-- The item type of an entry of the document. -/
def ofJson (name : String) (entry : Json) : Except TaxonomyError ItemType := do
  let description := SchemaDefinition.descriptionOf entry
  match entry.get? "enums" with
  | some enums => .ok (.enumerated name description (← parseValues name "enums" enums))
  | none =>
    match entry.get? "units" with
    | some units => .ok (.unit name description (← parseValues name "units" units))
    | none => .ok (.plain name description)

end ItemType

namespace ItemTypeGroup

/-- The ids of a list, each of which must be a string. -/
def parseIds (name : String) : List Json → Except TaxonomyError (List String)
  | [] => .ok []
  | .str id :: rest => do .ok (id :: (← parseIds name rest))
  | id :: _ => .error (.malformedSchema name (.groupId id))

/-- The group of an entry of the document. -/
def ofJson (name : String) (entry : Json) : Except TaxonomyError ItemTypeGroup := do
  let ids ← match entry.get? "group" with
    | none => .ok []
    | some (.arr ids) => parseIds name ids
    | some _ => .error (.malformedSchema name .groupNotAList)
  .ok ⟨name, (entry.getString? "type").getD "", SchemaDefinition.descriptionOf entry, ids⟩

end ItemTypeGroup

namespace Store

/-- The item type of a name. -/
def itemType (s : Store) (name : String) : Except TaxonomyError ItemType :=
  match s.itemTypes.get? name with
  | some entry => ItemType.ofJson name entry
  | none => .error (.unknownItemType name)

/-- The group of a name; no name and the empty name mean no group. -/
def itemTypeGroup (s : Store) (name : Option String) :
    Except TaxonomyError (Option ItemTypeGroup) :=
  match name with
  | none => .ok none
  | some "" => .ok none
  | some name =>
    match s.itemTypeGroups.get? name with
    | some entry => (ItemTypeGroup.ofJson name entry).map some
    | none => .error (.unknownItemTypeGroup name)

end Store

end Taxonomy
