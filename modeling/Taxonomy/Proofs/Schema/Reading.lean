import Mathlib.Data.Option.Basic
import Taxonomy.Proofs.NameMap
import Taxonomy.Proofs.Outcome
import Taxonomy.Schema.Store

/-!
# What a document is read from

Reading a document looks at few of its parts: at the references, item types, descriptions and maps
of properties of its definitions, and at two more maps. Two documents that agree in these parts
load to the same store or with the same fault, malformed definitions included. The relations here
say part by part what it means to agree; a rewriting of documents is checked against them.
-/

namespace Taxonomy

variable {α : Type u} {read : String → Json → α} {value value' : Json} {parent : Option String}

/-- Two values are read as the same map: both are maps in which every name is read alike, or neither
of them is a map. -/
inductive SameMap (read : String → Json → α) : Json → Json → Prop
  | maps {members members' : List (String × Json)}
      (h : ∀ name, (Entries.lookup name members).map (read name) =
        (Entries.lookup name members').map (read name)) : SameMap read (.obj members) (.obj members')
  | noMaps {value value' : Json} (h : value.asObject? = none) (h' : value'.asObject? = none) :
      SameMap read value value'

/-! ### Parts that may be absent -/

section Optional

variable {β γ : Type*} {R S : β → β → Prop} {a b c a' b' : Option β}

theorem rel_refl (hR : ∀ x, R x x) (a : Option β) : Option.Rel R a a := by
  cases a with
  | none => exact .none
  | some x => exact .some (hR x)

theorem rel_trans (hR : ∀ x y z, R x y → R y z → R x z) (h : Option.Rel R a b)
    (h' : Option.Rel R b c) : Option.Rel R a c := by
  cases h with
  | none => exact h'
  | some h =>
      cases h' with
      | some h' => exact .some (hR _ _ _ h h')

theorem rel_imp (hRS : ∀ x y, R x y → S x y) (h : Option.Rel R a b) : Option.Rel S a b := by
  cases h with
  | none => exact .none
  | some h => exact .some (hRS _ _ h)

/-- A part is looked for in a second place if it is not in the first. -/
theorem rel_or (h : Option.Rel R a b) (h' : Option.Rel R a' b') :
    Option.Rel R (a.or a') (b.or b') := by
  cases h with
  | none => exact h'
  | some h => exact .some h

theorem rel_bind {f : β → Option β} (h : Option.Rel R a b)
    (hf : ∀ x y, R x y → Option.Rel S (f x) (f y)) : Option.Rel S (a.bind f) (b.bind f) := by
  cases h with
  | none => exact .none
  | some h => exact hf _ _ h

theorem map_eq_of_rel {f : β → γ} (h : Option.Rel R a b) (hf : ∀ x y, R x y → f x = f y) :
    a.map f = b.map f := by
  cases h with
  | none => rfl
  | some h => exact congrArg some (hf _ _ h)

theorem bind_eq_of_rel {f : β → Option γ} (h : Option.Rel R a b)
    (hf : ∀ x y, R x y → f x = f y) : a.bind f = b.bind f := by
  cases h with
  | none => rfl
  | some h => exact hf _ _ h

end Optional

/-! ### Maps -/

theorem eq_obj_of_asObject? {members : List (String × Json)}
    (h : value.asObject? = some members) : value = .obj members := by
  cases value with
  | obj others =>
      cases h
      rfl
  | null | bool | int | float | str | arr => cases h

/-- Two values are both maps, or neither of them is. -/
theorem maps_or_no_maps (h : value.asObject?.isSome = value'.asObject?.isSome) :
    (∃ members members', value = .obj members ∧ value' = .obj members') ∨
      value.asObject? = none ∧ value'.asObject? = none := by
  cases hvalue : value.asObject? with
  | none =>
      rw [hvalue, Option.isSome_none] at h
      exact .inr ⟨rfl, Option.isNone_iff_eq_none.mp (Option.isSome_eq_false_iff.mp h.symm)⟩
  | some members =>
      rw [hvalue, Option.isSome_some] at h
      obtain ⟨members', hvalue'⟩ := Option.isSome_iff_exists.mp h.symm
      exact .inl ⟨members, members', eq_obj_of_asObject? hvalue, eq_obj_of_asObject? hvalue'⟩

namespace SchemaDefinition

/-- Two details blocks agree in all that is read of details. -/
structure SameDetails (value value' : Json) : Prop where
  isMap : value.asObject?.isSome = value'.asObject?.isSome
  itemType : itemTypeName? value = itemTypeName? value'
  itemTypeGroup : itemTypeGroupName? value = itemTypeGroupName? value'
  description : descriptionOf value = descriptionOf value'
  properties : Option.Rel (SameMap propertyTarget) (value.get? "properties")
    (value'.get? "properties")

/-- Two lists of parts agree: both are a superclass reference with details, or neither is. -/
inductive SameParts : Json → Json → Prop
  | pair {first first' details details' : Json} (superclass : reference? first = reference? first')
      (agree : SameDetails details details') :
      SameParts (.arr [first, details]) (.arr [first', details'])
  | noPair {value value' : Json} (h : ∀ first details, value ≠ .arr [first, details])
      (h' : ∀ first details, value' ≠ .arr [first, details]) : SameParts value value'

/-- Two definitions agree in all that is read of a definition. -/
structure SameDefinition (value value' : Json) : Prop where
  isMap : value.asObject?.isSome = value'.asObject?.isSome
  allOf : Option.Rel SameParts (value.get? "allOf") (value'.get? "allOf")
  type : value.getString? "type" = value'.getString? "type"
  items : arrayItems? value = arrayItems? value'
  description : descriptionOf value = descriptionOf value'
  properties : Option.Rel (SameMap propertyTarget) (value.get? "properties")
    (value'.get? "properties")

theorem propertiesOf_congr {members members' : List (String × Json)}
    (h : ∀ name, (Entries.lookup name members).map (propertyTarget name) =
      (Entries.lookup name members').map (propertyTarget name)) :
    propertiesOf members = propertiesOf members' := by
  have htargets : ∀ members, propertiesOf members =
      ((NameMap.ofList members).mapWithName propertyTarget).entries.map (fun e => ⟨e.1, e.2⟩) := by
    intro members
    rw [propertiesOf, NameMap.mapWithName, List.map_map]
    rfl
  rw [htargets, htargets, NameMap.mapWithName_ofList_congr h]

theorem objectOf_eq (parent : Option String) (value : Json) :
    objectOf parent value = (value.get? "properties").elim
      (.object ⟨parent, descriptionOf value, []⟩) (fun properties =>
        properties.asObject?.elim (.unrecognized .properties) (fun members =>
          .object ⟨parent, descriptionOf value, propertiesOf members⟩)) := by
  rw [objectOf]
  cases value.get? "properties" with
  | none => rfl
  | some properties => cases properties <;> rfl

theorem objectOf_congr (hdescription : descriptionOf value = descriptionOf value')
    (hproperties : Option.Rel (SameMap propertyTarget) (value.get? "properties")
      (value'.get? "properties")) :
    objectOf parent value = objectOf parent value' := by
  rw [objectOf_eq, objectOf_eq, hdescription]
  generalize value.get? "properties" = properties at hproperties
  generalize value'.get? "properties" = properties' at hproperties
  cases hproperties with
  | none => rfl
  | some hsame =>
      cases hsame with
      | maps h => simp only [Option.elim_some, Json.asObject?, propertiesOf_congr h]
      | noMaps h h' => rw [Option.elim_some, Option.elim_some, h, h']

theorem ofParts_congr (h : SameDetails value value') (name superclass : String) :
    ofParts name superclass value = ofParts name superclass value' := by
  rw [ofParts, ofParts, h.itemType, h.itemTypeGroup, h.description,
    objectOf_congr h.description h.properties]

theorem ofAllOf_pair (name : String) (first details : Json) :
    ofAllOf name (.arr [first, details]) = (reference? first).elim (.unrecognized .allOfReference)
      (fun superclass => details.asObject?.elim (.unrecognized .allOfDetails)
        (fun members => ofParts name superclass (.obj members))) := by
  simp only [ofAllOf]
  cases reference? first <;> cases details <;> rfl

theorem ofAllOf_of_no_pair (name : String) (h : ∀ first details, value ≠ .arr [first, details]) :
    ofAllOf name value = .unrecognized .allOfParts := by
  unfold ofAllOf
  split
  · rename_i first details
    exact absurd rfl (h first details)
  · rfl

theorem ofAllOf_congr (h : SameParts value value') (name : String) :
    ofAllOf name value = ofAllOf name value' := by
  cases h with
  | noPair h h' => rw [ofAllOf_of_no_pair name h, ofAllOf_of_no_pair name h']
  | pair hsuperclass hagree =>
      rw [ofAllOf_pair, ofAllOf_pair, hsuperclass]
      rcases maps_or_no_maps hagree.isMap with ⟨_, _, rfl, rfl⟩ | ⟨hdetails, hdetails'⟩
      · simp only [Json.asObject?, Option.elim_some, ofParts_congr hagree name]
      · rw [hdetails, hdetails']

theorem ofJson_of_no_map (name : String) (h : value.asObject? = none) :
    ofJson name value = .unrecognized .notAnObject := by
  cases value with
  | obj members => cases h
  | null | bool | int | float | str | arr => rfl

theorem ofJson_obj (name : String) (members : List (String × Json)) :
    ofJson name (.obj members) = ((Json.obj members).get? "allOf").elim
      (if (Json.obj members).getString? "type" = some "array" then
        (arrayItems? (.obj members)).elim (.unrecognized .arrayItems) .array
      else if ((Json.obj members).get? "properties").isSome ||
          (Json.obj members).getString? "type" = some "object" then objectOf none (.obj members)
      else .unrecognized .noShape) (ofAllOf name) := by
  simp only [ofJson]
  cases (Json.obj members).get? "allOf" with
  | some allOf => rfl
  | none => cases arrayItems? (.obj members) <;> rfl

/-- Definitions that agree in what is read of them are parsed alike. -/
theorem ofJson_congr (h : SameDefinition value value') (name : String) :
    ofJson name value = ofJson name value' := by
  rcases maps_or_no_maps h.isMap with ⟨members, members', rfl, rfl⟩ | ⟨hvalue, hvalue'⟩
  · have hproperties : ((Json.obj members).get? "properties").isSome =
        ((Json.obj members').get? "properties").isSome := by
      have hrel := h.properties
      generalize (Json.obj members).get? "properties" = properties at hrel
      generalize (Json.obj members').get? "properties" = properties' at hrel
      cases hrel <;> rfl
    rw [ofJson_obj, ofJson_obj, h.type, h.items, hproperties,
      objectOf_congr h.description h.properties]
    have hallOf := h.allOf
    generalize (Json.obj members).get? "allOf" = allOf at hallOf
    generalize (Json.obj members').get? "allOf" = allOf' at hallOf
    cases hallOf with
    | none => rfl
    | some hparts => exact ofAllOf_congr hparts name
  · rw [ofJson_of_no_map name hvalue, ofJson_of_no_map name hvalue']

end SchemaDefinition

namespace Store

/-- Two documents agree in all that is read of a document. -/
structure SameDocument (root root' : Json) : Prop where
  isMap : root.asObject?.isSome = root'.asObject?.isSome
  schemas : Option.Rel (SameMap SchemaDefinition.ofJson) (schemasPart? root) (schemasPart? root')
  itemTypes : Option.Rel (SameMap fun _ entry => entry)
    ((root.get? "item-types").or (root.get? "x-ob-item-types"))
    ((root'.get? "item-types").or (root'.get? "x-ob-item-types"))
  itemTypeGroups : Option.Rel (SameMap fun _ entry => entry)
    ((root.get? "item-type-groups").or (root.get? "x-ob-item-type-groups"))
    ((root'.get? "item-type-groups").or (root'.get? "x-ob-item-type-groups"))

theorem namedMap_of_no_map (part : String) (h : value.asObject? = none) :
    namedMap part value = .error (.notAnObject part) := by
  cases value with
  | obj members => cases h
  | null | bool | int | float | str | arr => rfl

theorem get?_parseSchemas (entries : NameMap Json) (name : String) :
    (parseSchemas entries).get? name = if Category.isPrimitiveSchema name then none
      else (entries.get? name).map (SchemaDefinition.ofJson name) := by
  rw [parseSchemas, NameMap.get?_mapWithName, NameMap.get?_filterNames]
  cases Category.isPrimitiveSchema name <;> rfl

/-- Maps of schemas whose definitions are parsed alike, or that are no maps. -/
theorem parseSchemas_congr (h : SameMap SchemaDefinition.ofJson value value') :
    parseSchemas <$> namedMap "schemas" value = parseSchemas <$> namedMap "schemas" value' := by
  cases h with
  | maps h =>
      refine congrArg Except.ok (NameMap.ext_get? fun name => ?_)
      rw [get?_parseSchemas, get?_parseSchemas, NameMap.get?_ofList, NameMap.get?_ofList, h]
  | noMaps h h' => rw [namedMap_of_no_map _ h, namedMap_of_no_map _ h']

theorem optionalMap_congr {value value' : Option Json} (part : String)
    (h : Option.Rel (SameMap fun _ entry => entry) value value') :
    optionalMap part value = optionalMap part value' := by
  cases h with
  | none => rfl
  | some h =>
      cases h with
      | maps h =>
          refine congrArg Except.ok (NameMap.ext_get? fun name => ?_)
          rw [NameMap.get?_ofList, NameMap.get?_ofList]
          simpa using h name
      | noMaps h h' =>
          rw [optionalMap, optionalMap, namedMap_of_no_map _ h, namedMap_of_no_map _ h']

theorem ofJson_obj (members : List (String × Json)) :
    ofJson (.obj members) =
      (schemasPart? (.obj members)).elim (.error .noSchemas)
          (fun value => parseSchemas <$> namedMap "schemas" value) >>= fun schemas =>
        optionalMap "item-types" (((Json.obj members).get? "item-types").or
            ((Json.obj members).get? "x-ob-item-types")) >>= fun itemTypes =>
          optionalMap "item-type-groups" (((Json.obj members).get? "item-type-groups").or
              ((Json.obj members).get? "x-ob-item-type-groups")) >>= fun itemTypeGroups =>
            .ok ⟨none, schemas, itemTypes, itemTypeGroups⟩ := by
  simp only [ofJson, Except.ok_bind]
  cases schemasPart? (.obj members) with
  | none => rfl
  | some value =>
      simp only [Option.elim_some]
      cases namedMap "schemas" value <;> rfl

/-- A loaded document declares what its map of schemas has, the primitive superclasses apart. -/
theorem exists_schemas_of_ofJson {root : Json} {s : Store} (hread : ofJson root = .ok s) :
    ∃ members, schemasPart? root = some (.obj members) ∧ ∀ name,
      s.schemas.get? name = if Category.isPrimitiveSchema name then none
        else (Entries.lookup name members).map (SchemaDefinition.ofJson name) := by
  cases root with
  | null | bool | int | float | str | arr => cases hread
  | obj parts =>
      rw [ofJson_obj] at hread
      cases hschemas : schemasPart? (.obj parts) with
      | none =>
          rw [hschemas] at hread
          cases hread
      | some schemas =>
          rw [hschemas, Option.elim_some] at hread
          simp only [Except.bind_eq_ok_iff, Except.map_eq_ok_iff] at hread
          obtain ⟨_, ⟨entries, hentries, rfl⟩, _, _, _, _, hs⟩ := hread
          cases hs
          cases schemas with
          | obj members =>
              cases hentries
              refine ⟨members, rfl, fun name => ?_⟩
              rw [get?_parseSchemas, NameMap.get?_ofList]
          | null | bool | int | float | str | arr => cases hentries

theorem ofJson_of_no_map {root : Json} (h : root.asObject? = none) :
    ofJson root = .error .rootNotAnObject := by
  cases root with
  | obj members => cases h
  | null | bool | int | float | str | arr => rfl

/-- Documents that agree in what is read of them load to the same store, or with the same fault. -/
theorem ofJson_congr {root root' : Json} (h : SameDocument root root') :
    ofJson root = ofJson root' := by
  rcases maps_or_no_maps h.isMap with ⟨members, members', rfl, rfl⟩ | ⟨hroot, hroot'⟩
  · have hschemas : (schemasPart? (.obj members)).elim (.error .noSchemas)
        (fun value => parseSchemas <$> namedMap "schemas" value) =
        (schemasPart? (.obj members')).elim (.error .noSchemas)
        (fun value => parseSchemas <$> namedMap "schemas" value) := by
      have hrel := h.schemas
      generalize schemasPart? (.obj members) = schemas at hrel
      generalize schemasPart? (.obj members') = schemas' at hrel
      cases hrel with
      | none => rfl
      | some hsame => exact parseSchemas_congr hsame
    rw [ofJson_obj, ofJson_obj, hschemas, optionalMap_congr _ h.itemTypes,
      optionalMap_congr _ h.itemTypeGroups]
  · rw [ofJson_of_no_map hroot, ofJson_of_no_map hroot']

end Store

end Taxonomy
