import Taxonomy.Proofs.Schema.Reading
import Taxonomy.Proofs.Text.Split

/-!
# The two layouts of a document

A document has its schemas, item types and groups at the top, or it is an OpenAPI document, with the
schemas among its components and the other two under names of their own. Rewriting a document of the
first layout into the second moves the three maps, makes every reference a path into the components,
and spells the item type and the group of an element the other way. It loads to the same store or
with the same fault, malformed definitions included.
-/

namespace Taxonomy

/-- What the references of the second layout begin with. -/
def componentsPath : String := "#/components/schemas/"

/-- Where a value stands inside the schemas. -/
inductive SchemaPlace
  | schemas
  | definition
  /-- The list under `allOf`. -/
  | parts
  /-- A map of properties. -/
  | properties
  /-- A part of an `allOf`, the body of a property or an items block. -/
  | block
  /-- What stands under `$ref` in a block. -/
  | reference
deriving DecidableEq

namespace SchemaPlace

/-- The places below a definition or a block. -/
def inner? (key : String) : Option SchemaPlace :=
  if key = "allOf" then some parts
  else if key = "items" then some block
  else if key = "properties" then some properties
  else none

/-- The place of a member, if it has one. -/
def member? : SchemaPlace → String → Option SchemaPlace
  | schemas, _ => some definition
  | definition, key => inner? key
  | block, key => if key = "$ref" then some reference else inner? key
  | properties, _ => some block
  | parts, _ => none
  | reference, _ => none

end SchemaPlace

/-- The other spelling of a name in details. -/
def respelled (key : String) : String :=
  if key = "item-type" then "x-ob-item-type"
  else if key = "item-type-group" then "x-ob-item-type-group"
  else key

/-- Details with the item type and the group in the other spelling. -/
def respellDetails : Json → Json
  | .obj members => .obj (members.map (fun m => (respelled m.1, m.2)))
  | value => value

mutual

/-- Rewrite a value that stands at a place. -/
def relocate : SchemaPlace → Json → Json
  | place, .obj members => .obj (relocateMembers place members)
  | place, .arr items => .arr (if place = .parts then relocateParts items else items)
  | place, .str reference =>
    .str (if place = .reference then componentsPath ++ SchemaDefinition.referencedName reference
      else reference)
  | _, value => value

def relocateMembers : SchemaPlace → List (String × Json) → List (String × Json)
  | _, [] => []
  | place, (key, value) :: rest =>
    (key, match place.member? key with
      | some inner => relocate inner value
      | none => value) :: relocateMembers place rest

/-- The first part is the superclass, what follows it is details. -/
def relocateParts : List Json → List Json
  | [] => []
  | superclass :: rest => relocate .block superclass :: relocateDetails rest

def relocateDetails : List Json → List Json
  | [] => []
  | details :: rest => respellDetails (relocate .block details) :: relocateDetails rest

end

/-- The name of a part of a document in the second layout. -/
def relocatedName (key : String) : String :=
  if key = "schemas" then "components"
  else if key = "item-types" then "x-ob-item-types"
  else if key = "item-type-groups" then "x-ob-item-type-groups"
  else key

/-- A part of a document in the second layout. -/
def relocatedPart (key : String) (value : Json) : Json :=
  if key = "schemas" then .obj [("schemas", relocate .schemas value)] else value

/-- A document of the first layout in the second. -/
def relocateDocument : Json → Json
  | .obj members => .obj (members.map (fun m => (relocatedName m.1, relocatedPart m.1 m.2)))
  | value => value

/-- The details name the item type in one spelling at most, and the group as well. -/
def OneSpelling (details : Json) : Prop :=
  (details.get? "item-type" = none ∨ details.get? "x-ob-item-type" = none) ∧
    (details.get? "item-type-group" = none ∨ details.get? "x-ob-item-type-group" = none)

/-- The document has no part of the second layout, and its details are spelled in one way. -/
structure FirstLayout (root : Json) : Prop where
  components : root.get? "components" = none
  itemTypes : root.get? "x-ob-item-types" = none
  itemTypeGroups : root.get? "x-ob-item-type-groups" = none
  oneSpelling : ∀ schemas ∈ root.get? "schemas", ∀ name, ∀ definition ∈ schemas.get? name,
    ∀ parts, definition.get? "allOf" = some (.arr parts) → ∀ details ∈ parts.tail,
      OneSpelling details

variable {place : SchemaPlace} {value details : Json} {key : String}

/-- Rewrite a member, which has a place or has none. -/
def relocateAt : Option SchemaPlace → Json → Json
  | some place, value => relocate place value
  | none, value => value

theorem relocateMembers_eq_map (place : SchemaPlace) (members : List (String × Json)) :
    relocateMembers place members =
      members.map (fun m => (m.1, relocateAt (place.member? m.1) m.2)) := by
  induction members with
  | nil => rw [relocateMembers, List.map_nil]
  | cons member rest ih =>
      obtain ⟨key, value⟩ := member
      rw [relocateMembers, ih, List.map_cons]
      cases place.member? key <;> rfl

theorem isMap_relocate (place : SchemaPlace) (value : Json) :
    (relocate place value).asObject?.isSome = value.asObject?.isSome := by
  cases value <;> simp [relocate, Json.asObject?]

/-- A member is found where it was, rewritten if it has a place. -/
theorem get?_relocate (place : SchemaPlace) (value : Json) (key : String) :
    (relocate place value).get? key = (value.get? key).map (relocateAt (place.member? key)) := by
  cases value with
  | obj members =>
      rw [relocate, relocateMembers_eq_map]
      exact Entries.lookup_map (fun key => relocateAt (place.member? key)) key members
  | null | bool | int | float | str | arr => simp [relocate, Json.get?]

/-- What has no place is left as it is. -/
theorem getString?_relocate (h : place.member? key = none) :
    (relocate place value).getString? key = value.getString? key := by
  rw [Json.getString?, get?_relocate, h, Json.getString?]
  cases value.get? key <;> rfl

/-- A rewritten reference names the schema that it named before. -/
theorem referencedName_componentsPath (reference : String) :
    SchemaDefinition.referencedName (componentsPath ++ SchemaDefinition.referencedName reference) =
      SchemaDefinition.referencedName reference := by
  have hpath : componentsPath.toList = "#/components/schemas".toList ++ ['/'] := by decide
  simp only [SchemaDefinition.referencedName, String.toList_append, String.toList_ofList, hpath,
    List.append_assoc, List.singleton_append]
  rw [Text.afterLast_append_cons (Text.not_mem_afterLast '/' reference.toList)]

namespace SchemaDefinition

theorem reference?_relocate (value : Json) :
    reference? (relocate .block value) = reference? value := by
  have hplace : SchemaPlace.block.member? "$ref" = some .reference := by decide
  rw [reference?, reference?, Json.getString?, get?_relocate, hplace, Json.getString?]
  cases value.get? "$ref" with
  | none => rfl
  | some target =>
      cases target with
      | str reference =>
          simp only [Option.map_some, Option.bind_some, relocateAt, relocate, if_true,
            Json.asString?, referencedName_componentsPath]
      | null | bool | int | float | arr | obj => simp [relocateAt, relocate, Json.asString?]

theorem arrayItems?_relocate (htype : place.member? "type" = none)
    (hitems : place.member? "items" = some .block) :
    arrayItems? (relocate place value) = arrayItems? value := by
  rw [arrayItems?, arrayItems?, getString?_relocate htype, get?_relocate, hitems]
  cases value.get? "items" with
  | none => rfl
  | some items => simp only [Option.map_some, Option.bind_some, relocateAt, reference?_relocate]

theorem propertyTarget_relocate (name : String) (body : Json) :
    propertyTarget name (relocate .block body) = propertyTarget name body := by
  rw [propertyTarget, propertyTarget, reference?_relocate,
    arrayItems?_relocate (by decide) (by decide)]

theorem descriptionOf_relocate (h : place.member? "description" = none) :
    descriptionOf (relocate place value) = descriptionOf value := by
  rw [descriptionOf, descriptionOf, getString?_relocate h]

end SchemaDefinition

/-- The values of a rewritten map are read as before, if each of them is at its place. -/
theorem sameMap_relocate {α : Type u} {read : String → Json → α} {inner : SchemaPlace}
    (hplace : ∀ name, place.member? name = some inner) (value : Json)
    (hread : ∀ name, ∀ body ∈ value.get? name, read name (relocate inner body) = read name body) :
    SameMap read (relocate place value) value := by
  rcases maps_or_no_maps (isMap_relocate place value) with ⟨members, members', hvalue, rfl⟩ |
    ⟨hvalue, hvalue'⟩
  · rw [hvalue]
    refine .maps fun name => ?_
    have hmember := get?_relocate place (.obj members') name
    rw [hvalue, hplace] at hmember
    change Entries.lookup name members = (Entries.lookup name members').map (relocate inner)
      at hmember
    rw [hmember, Option.map_map]
    cases hbody : Entries.lookup name members' with
    | none => rfl
    | some body => exact congrArg some (hread name body hbody)
  · exact .noMaps hvalue hvalue'

/-- The properties of a rewritten definition or block stand for what they stood for. -/
theorem sameProperties_relocate (hplace : place.member? "properties" = some .properties)
    (value : Json) :
    Option.Rel (SameMap SchemaDefinition.propertyTarget) ((relocate place value).get? "properties")
      (value.get? "properties") := by
  rw [get?_relocate, hplace]
  cases value.get? "properties" with
  | none => exact .none
  | some properties =>
      exact .some (sameMap_relocate (fun _ => rfl) properties fun name body _ =>
        SchemaDefinition.propertyTarget_relocate name body)

/-! ### Details -/

theorem isMap_respellDetails (value : Json) :
    (respellDetails value).asObject?.isSome = value.asObject?.isSome := by
  cases value <;> rfl

/-- Where the entries of one key, and no others, are respelled to another, they are found there. -/
theorem get?_respellDetails {old : String} {members : List (String × Json)}
    (h : ∀ m ∈ members, respelled m.1 = key ↔ m.1 = old) :
    (respellDetails (.obj members)).get? key = (Json.obj members).get? old := by
  have hlookup := Entries.lookup_rename respelled (fun _ value => value) h
  rw [Option.map_id'] at hlookup
  exact hlookup

/-- Names that are in neither spelling are found where they were. -/
theorem get?_respellDetails_of_other (key : String)
    (hkey : ∀ other, respelled other = key ↔ other = key) (value : Json) :
    (respellDetails value).get? key = value.get? key := by
  cases value with
  | obj members => exact get?_respellDetails fun m _ => hkey m.1
  | null | bool | int | float | str | arr => rfl

theorem ne_of_get?_eq_none {members : List (String × Json)}
    (h : (Json.obj members).get? key = none) :
    ∀ m ∈ members, m.1 ≠ key :=
  Entries.lookup_eq_none_iff.mp h

/-- A name that occurs in one spelling at most is found in the spelling that it is changed to. -/
theorem or_respellDetails {old new : String}
    (hnew : ∀ other, respelled other = new ↔ other = old ∨ other = new)
    (hold : ∀ other, respelled other ≠ old) (value : Json)
    (hone : value.get? old = none ∨ value.get? new = none) :
    (respellDetails value).get? old = none ∧
      (respellDetails value).get? new = (value.get? new).or (value.get? old) := by
  cases value with
  | obj members =>
      have hnone : (respellDetails (.obj members)).get? old = none := by
        refine Entries.lookup_eq_none_iff.mpr fun m hm => ?_
        obtain ⟨member, _, rfl⟩ := List.mem_map.mp hm
        exact hold member.1
      refine ⟨hnone, ?_⟩
      rcases hone with hone | hone
      · rw [hone, Option.or_none]
        refine get?_respellDetails fun m hm => ?_
        rw [hnew]
        exact or_iff_right (ne_of_get?_eq_none hone m hm)
      · rw [hone, Option.none_or]
        refine get?_respellDetails fun m hm => ?_
        rw [hnew]
        exact or_iff_left (ne_of_get?_eq_none hone m hm)
  | null | bool | int | float | str | arr => exact ⟨rfl, rfl⟩

/-- A string in one of two spellings is found in the second after it is respelled. -/
theorem getString?_respellDetails (old new : String)
    (hnew : ∀ other, respelled other = new ↔ other = old ∨ other = new)
    (hold : ∀ other, respelled other ≠ old) (value : Json)
    (hone : value.get? old = none ∨ value.get? new = none) :
    ((respellDetails value).getString? new).or ((respellDetails value).getString? old) =
      (value.getString? new).or (value.getString? old) := by
  obtain ⟨hnone, hfound⟩ := or_respellDetails hnew hold value hone
  simp only [Json.getString?, hnone, hfound]
  rcases hone with hone | hone <;> simp [hone]

theorem oneSpelling_relocate (h : OneSpelling details) : OneSpelling (relocate .block details) := by
  have hkept : ∀ key, details.get? key = none → (relocate .block details).get? key = none := by
    intro key hnone
    rw [get?_relocate, hnone, Option.map_none]
  exact ⟨h.1.imp (hkept _) (hkept _), h.2.imp (hkept _) (hkept _)⟩

namespace SchemaDefinition

/-- Details that are rewritten and respelled agree with the details. -/
theorem sameDetails_relocate (h : OneSpelling details) :
    SameDetails (respellDetails (relocate .block details)) details := by
  have hone := oneSpelling_relocate h
  have hitemType := getString?_respellDetails "item-type" "x-ob-item-type"
    (by grind [respelled]) (by grind [respelled]) _ hone.1
  have hgroup := getString?_respellDetails "item-type-group" "x-ob-item-type-group"
    (by grind [respelled]) (by grind [respelled]) _ hone.2
  have hdescription := get?_respellDetails_of_other "description" (by grind [respelled])
    (relocate .block details)
  have hproperties := get?_respellDetails_of_other "properties" (by grind [respelled])
    (relocate .block details)
  constructor
  · rw [isMap_respellDetails, isMap_relocate]
  · rw [itemTypeName?, hitemType, getString?_relocate (by decide), getString?_relocate (by decide),
      itemTypeName?]
  · rw [itemTypeGroupName?, hgroup, getString?_relocate (by decide),
      getString?_relocate (by decide), itemTypeGroupName?]
  · rw [descriptionOf, Json.getString?, hdescription, ← Json.getString?, ← descriptionOf,
      descriptionOf_relocate (by decide)]
  · rw [hproperties]
    exact sameProperties_relocate (by decide) details

/-- The parts of a definition agree before and after. -/
theorem sameParts_relocate
    (h : ∀ parts, value = .arr parts → ∀ details ∈ parts.tail, OneSpelling details) :
    SameParts (relocate .parts value) value := by
  cases value with
  | arr parts =>
      rw [relocate, if_pos rfl]
      -- Only a list of two parts is read, and a rewritten list is as long as it was.
      rcases parts with _ | ⟨first, _ | ⟨details, _ | ⟨third, rest⟩⟩⟩
      · exact .noPair (by simp [relocateParts]) (by simp)
      · exact .noPair (by simp [relocateParts, relocateDetails]) (by simp)
      · rw [relocateParts, relocateDetails, relocateDetails]
        exact .pair (reference?_relocate first)
          (sameDetails_relocate (h _ rfl details List.mem_cons_self))
      · exact .noPair (by simp [relocateParts, relocateDetails]) (by simp)
  | null | bool | int | float | str | obj =>
      exact .noPair (by simp [relocate]) (by simp)

/-- A rewritten definition agrees with the definition. -/
theorem sameDefinition_relocate
    (h : ∀ parts, value.get? "allOf" = some (.arr parts) → ∀ details ∈ parts.tail,
      OneSpelling details) :
    SameDefinition (relocate .definition value) value where
  isMap := isMap_relocate .definition value
  allOf := by
    have hplace : SchemaPlace.definition.member? "allOf" = some .parts := by decide
    rw [get?_relocate, hplace]
    cases hallOf : value.get? "allOf" with
    | none => exact .none
    | some allOf =>
        exact .some (sameParts_relocate fun parts hparts => h parts (hparts ▸ hallOf))
  type := getString?_relocate (by decide)
  items := arrayItems?_relocate (by decide) (by decide)
  description := descriptionOf_relocate (by decide)
  properties := sameProperties_relocate (by decide) value

end SchemaDefinition

/-! ### Documents -/

namespace Store

variable {root : Json} {members : List (String × Json)}

theorem sameMap_refl {α : Type u} (read : String → Json → α) (value : Json) :
    SameMap read value value := by
  cases value with
  | obj members => exact .maps fun _ => rfl
  | null | bool | int | float | str | arr => exact .noMaps rfl rfl

/-- A part of the first layout is found under the name that it has in the second. -/
theorem get?_relocateDocument (old new : String)
    (hnew : ∀ other, relocatedName other = new ↔ other = old ∨ other = new)
    (hfree : (Json.obj members).get? new = none) :
    (relocateDocument (.obj members)).get? new =
      ((Json.obj members).get? old).map (relocatedPart old) := by
  refine Entries.lookup_rename relocatedName relocatedPart fun m hm => ?_
  rw [hnew]
  exact or_iff_left (ne_of_get?_eq_none hfree m hm)

/-- The names of the first layout are gone. -/
theorem get?_relocateDocument_eq_none (hgone : ∀ other, relocatedName other ≠ key) :
    (relocateDocument (.obj members)).get? key = none := by
  refine Entries.lookup_eq_none_iff.mpr fun m hm => ?_
  obtain ⟨member, _, rfl⟩ := List.mem_map.mp hm
  exact hgone member.1

/-- A table is found in either layout. -/
theorem sameTable_relocateDocument {old new : String} (hold : old ≠ "schemas")
    (hnew : ∀ other, relocatedName other = new ↔ other = old ∨ other = new)
    (hgone : ∀ other, relocatedName other ≠ old) (hfree : (Json.obj members).get? new = none) :
    Option.Rel (SameMap fun _ entry => entry)
      (((relocateDocument (.obj members)).get? old).or ((relocateDocument (.obj members)).get? new))
      (((Json.obj members).get? old).or ((Json.obj members).get? new)) := by
  have hpart : relocatedPart old = id := by
    funext value
    rw [relocatedPart, if_neg hold, id]
  rw [get?_relocateDocument_eq_none hgone, get?_relocateDocument old new hnew hfree, hfree, hpart,
    Option.map_id, Option.none_or, Option.or_none]
  exact rel_refl (sameMap_refl _) _

/-- A rewritten map of schemas holds the same definitions. -/
theorem sameSchemas_relocate
    (h : ∀ name, ∀ definition ∈ value.get? name, ∀ parts,
      definition.get? "allOf" = some (.arr parts) → ∀ details ∈ parts.tail, OneSpelling details) :
    SameMap SchemaDefinition.ofJson (relocate .schemas value) value :=
  sameMap_relocate (fun _ => rfl) value fun name definition hdefinition =>
    SchemaDefinition.ofJson_congr
      (SchemaDefinition.sameDefinition_relocate (h name definition hdefinition)) name

theorem sameDocument_relocateDocument (h : FirstLayout root) :
    SameDocument (relocateDocument root) root := by
  cases root with
  | obj members =>
      have hcomponents := get?_relocateDocument "schemas" "components"
        (by grind [relocatedName]) h.components
      have hschemas : schemasPart? (relocateDocument (.obj members)) =
          ((Json.obj members).get? "schemas").map (relocate .schemas) := by
        rw [schemasPart?, get?_relocateDocument_eq_none (by grind [relocatedName]), hcomponents,
          Option.none_or]
        cases (Json.obj members).get? "schemas" <;> rfl
      have hplain : schemasPart? (.obj members) = (Json.obj members).get? "schemas" := by
        rw [schemasPart?, h.components, Option.bind_none, Option.or_none]
      refine ⟨rfl, ?_, ?_, ?_⟩
      · rw [hschemas, hplain]
        cases hfound : (Json.obj members).get? "schemas" with
        | none => exact .none
        | some schemas => exact .some (sameSchemas_relocate (h.oneSpelling schemas hfound))
      · exact sameTable_relocateDocument (by decide) (by grind [relocatedName])
          (by grind [relocatedName]) h.itemTypes
      · exact sameTable_relocateDocument (by decide) (by grind [relocatedName])
          (by grind [relocatedName]) h.itemTypeGroups
  | null | bool | int | float | str | arr => exact ⟨rfl, .none, .none, .none⟩

/-- A document loads in both layouts to the same store, or with the same fault. -/
theorem ofValue_relocateDocument (h : FirstLayout root) :
    ofValue (relocateDocument root) = ofValue root := by
  rw [ofValue, ofValue, ofJson_congr (sameDocument_relocateDocument h)]

def tapColour : Json :=
  .obj [("allOf", .arr [.obj [("$ref", .str "#/schemas/TaxonomyElementString")],
    .obj [("item-type", .str "Colour"), ("item-type-group", .str "Warm")]])]

def tap : Json :=
  .obj [("properties", .obj [("Colour", .obj [("$ref", .str "#/schemas/TapColour")]),
    ("Spares", .obj [("type", .str "array"), ("items", .obj [("$ref", .str "Tap")])])])]

/-- A tap has a colour and spare taps. -/
def taps : Json :=
  .obj [("schemas", .obj [("TapColour", tapColour), ("Tap", tap), ("Valve", .str "no definition")]),
    ("item-types", .obj [("Colour", .obj [("enums", .obj [("red", .null), ("blue", .null)])])]),
    ("item-type-groups", .obj [("Warm", .obj [("group", .arr [.str "red"])])])]

theorem firstLayout_taps : FirstLayout taps where
  components := rfl
  itemTypes := rfl
  itemTypeGroups := rfl
  oneSpelling := by
    intro schemas hschemas name definition hdefinition parts hparts details hdetails
    cases hschemas
    have hentry := Entries.mem_of_lookup hdefinition
    simp only [List.mem_cons, Prod.mk.injEq, List.not_mem_nil, or_false] at hentry
    rcases hentry with ⟨_, rfl⟩ | ⟨_, rfl⟩ | ⟨_, rfl⟩
    · cases hparts
      rw [List.mem_singleton.mp hdetails]
      exact ⟨.inr rfl, .inr rfl⟩
    · cases hparts
    · cases hparts

/-- The taps load in both layouts to the same store. -/
theorem ofValue_relocateDocument_taps : FirstLayout taps ∧
    ∃ s, ofValue taps = .ok s ∧ ofValue (relocateDocument taps) = .ok s := by
  refine ⟨firstLayout_taps, ?_⟩
  have hloads : (ofValue taps).toBool = true := by
    decide +kernel
  obtain ⟨s, hs⟩ := Except.exists_of_toBool hloads
  exact ⟨s, hs, (ofValue_relocateDocument firstLayout_taps).trans hs⟩

end Store

end Taxonomy
