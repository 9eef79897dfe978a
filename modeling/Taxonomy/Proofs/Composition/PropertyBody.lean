import Taxonomy.Proofs.Composition.Partition

/-!
# Properties without a form

A property is written as a reference, as an array in place, or with an empty body that leaves its
name to say what it is. A body of no such form is not refused: it is read as an empty one. So whether
an object with such a property compiles is decided by the other names of the document, and where one
of them is the name of the property, the property becomes what that schema is.
-/

namespace Taxonomy

namespace SchemaDefinition

variable {value body : Json} {name p : String} {definition : ObjectDefinition}

/-- The forms in which a property is written. -/
inductive PropertyForm (body : Json) : Prop
  | reference {reference : String} (h : body.getString? "$ref" = some reference)
  | array {items : Json} {reference : String} (htype : body.getString? "type" = some "array")
      (hitems : body.get? "items" = some items) (h : items.getString? "$ref" = some reference)
  | empty (h : body = .obj [])

/-- The bodies of the properties of an object. An object that extends another has them in its
details. -/
def propertyBodies? (value : Json) : Option Json :=
  match value.get? "allOf" with
  | none => value.get? "properties"
  | some (.arr [_, details]) => details.get? "properties"
  | some _ => none

/-- A body of no form stands for the schema of the property's own name. -/
theorem propertyTarget_of_no_form (h : ¬ PropertyForm body) (p : String) :
    propertyTarget p body = .schema p := by
  have hreference : reference? body = none := by
    rw [reference?, Option.map_eq_none_iff, Option.eq_none_iff_forall_ne_some]
    intro reference href
    exact h (.reference href)
  have hitems : arrayItems? body = none := by
    rw [arrayItems?]
    split
    · rename_i htype
      rw [Option.bind_eq_none_iff]
      intro items hitems
      rw [reference?, Option.map_eq_none_iff, Option.eq_none_iff_forall_ne_some]
      intro reference href
      exact h (.array htype hitems href)
    · rfl
  rw [propertyTarget, hreference, hitems]

/-- Every body in the map of an object is the body of one of its properties. -/
theorem mem_properties_of_ofJson (h : ofJson name value = .object definition)
    (hbody : (propertyBodies? value).bind (·.get? p) = some body) :
    ⟨p, propertyTarget p body⟩ ∈ definition.properties := by
  obtain ⟨_, hlists, hplace⟩ := isReadFrom_of_ofJson h
  apply hlists.mem
  rcases hplace with ⟨hown, -, hbodies⟩ | ⟨_, _, _, ⟨_, hallOf, -⟩, -, -, hbodies⟩
  · rw [propertyBodies?, hown] at hbody
    exact hbodies.lookup_eq hbody
  · rw [propertyBodies?, hallOf] at hbody
    exact hbodies.lookup_eq hbody

end SchemaDefinition

namespace Store

open SchemaDefinition (PropertyForm propertyBodies? propertyTarget)

variable {root body : Json} {s : Store} {name p : String} {definition : SchemaDefinition}

/-- The body of a property in a document. -/
def propertyBody? (root : Json) (name p : String) : Option Json := do
  let schemas ← schemasPart? root
  let value ← schemas.get? name
  let bodies ← propertyBodies? value
  bodies.get? p

/-- A definition is read from the entry of its name. -/
theorem ofJson_of_get? (hload : ofValue root = .ok s)
    (hentry : s.schemas.get? name = some definition) :
    ∃ schemas value, schemasPart? root = some schemas ∧ schemas.get? name = some value ∧
      SchemaDefinition.ofJson name value = definition := by
  obtain ⟨members, hschemas, hget⟩ := exists_schemas_of_ofJson (Except.mapError_eq_ok_iff.mp hload)
  rw [hget] at hentry
  split at hentry
  · cases hentry
  · obtain ⟨value, hvalue, hdefinition⟩ := Option.map_eq_some_iff.mp hentry
    exact ⟨.obj members, value, hschemas, hvalue, hdefinition⟩

/-- What a property stands for in a compiled object can be classified. -/
theorem exists_classify_of_places {overrides : ObjectOverrides} {o : CompiledObject}
    {target : String} (h : s.Places overrides o ⟨p, .schema target⟩) :
    ∃ kind, s.classify target = .ok kind := by
  cases h with
  | inline htarget _ => cases htarget
  | array htarget entry _ =>
      cases htarget
      exact ⟨_, classify_of_array entry⟩
  | element htarget kind _ _ =>
      cases htarget
      exact ⟨_, kind⟩
  | object htarget kind _ _ =>
      cases htarget
      exact ⟨_, kind⟩

/-- A property without a form becomes what the schema of its own name is, if the object compiles at
all. If no schema of that name is in order, the object does not compile. -/
theorem places_of_no_form (hload : ofValue root = .ok s) (hobject : s.DeclaresObject name)
    (hbody : propertyBody? root name p = some body) (hform : ¬ PropertyForm body) :
    (∀ overrides o, (s.compile name overrides {}).1 = .ok o →
      s.Places overrides o ⟨p, .schema p⟩) ∧
    ((∀ kind, s.classify p ≠ .ok kind) →
      ∀ overrides, ∃ e, (s.compile name overrides {}).1 = .error e) := by
  obtain ⟨definition, hentry⟩ := hobject
  obtain ⟨schemas, value, hschemas, hvalue, hread⟩ := ofJson_of_get? hload hentry
  have hmem : ⟨p, .schema p⟩ ∈ definition.properties := by
    rw [← SchemaDefinition.propertyTarget_of_no_form hform p]
    apply SchemaDefinition.mem_properties_of_ofJson hread
    rw [propertyBody?, hschemas] at hbody
    simpa [hvalue] using hbody
  have hplaces : ∀ overrides o, (s.compile name overrides {}).1 = .ok o →
      s.Places overrides o ⟨p, .schema p⟩ := by
    intro overrides o ho
    rw [(s.compile_agrees name overrides {} s.sound_empty).1] at ho
    have hordered : definition.Ordered := Loaded.ordered (.value hload) hentry
    exact (partitions_of_compose hordered hentry ho).places _ hmem
  refine ⟨hplaces, ?_⟩
  intro hunclassified overrides
  cases hcompile : (s.compile name overrides {}).1 with
  | error e => exact ⟨e, rfl⟩
  | ok o =>
      obtain ⟨kind, hkind⟩ := exists_classify_of_places (hplaces overrides o hcompile)
      exact absurd hkind (hunclassified kind)

/-- A boiler has a reading, in a property that says it is an array and not of what. -/
def boilersDocument : Json :=
  .obj [
    ("schemas", .obj [
      ("Boiler", .obj [("properties", .obj [("Reading", .obj [("type", .str "array")])])]),
      ("Reading", .obj [("allOf", .arr [.obj [("$ref", .str "TaxonomyElementString")],
        .obj [("item-type", .str "String")]])])]),
    ("item-types", .obj [("String", .obj [])])]

/-- The reading of a boiler is a single element. -/
def boilers : Store where
  source := none
  schemas := .ofList [
    ("Boiler", .object ⟨none, "", [⟨"Reading", .schema "Reading"⟩]⟩),
    ("Reading", .element ⟨"TaxonomyElementString", "", "String", none⟩)]
  itemTypes := .ofList [("String", .obj [])]
  itemTypeGroups := .empty

theorem ofValue_boilersDocument : ofValue boilersDocument = .ok boilers := by
  cbv

theorem propertyBody?_boilersDocument :
    propertyBody? boilersDocument "Boiler" "Reading" = some (.obj [("type", .str "array")]) := by
  cbv

/-- To be an array of nothing is no form. -/
theorem no_form_boilersDocument : ¬ PropertyForm (.obj [("type", .str "array")]) := by
  intro h
  cases h with
  | reference h => cases h
  | array _ hitems _ => cases hitems
  | empty h => cases h

theorem compile_boiler :
    CompiledObject.arrays <$> (boilers.compile "Boiler" .empty {}).1 = .ok [] := by
  cbv

/-- The reading of a boiler, written as an array of nothing, is compiled as one element. -/
theorem places_of_no_form_boiler :
    ∃ o e, (boilers.compile "Boiler" .empty {}).1 = .ok o ∧ ("Reading", e) ∈ o.elements ∧
      o.arrays = [] := by
  obtain ⟨o, hcompile, harrays⟩ := Except.map_eq_ok_iff.mp compile_boiler
  have hobject : boilers.DeclaresObject "Boiler" := ⟨_, by cbv⟩
  have helement : boilers.schemas.get? "Reading" =
      some (.element ⟨"TaxonomyElementString", "", "String", none⟩) := by
    cbv
  obtain ⟨hplaces, -⟩ := places_of_no_form ofValue_boilersDocument hobject
    propertyBody?_boilersDocument no_form_boilersDocument
  cases hplaces .empty o hcompile with
  | inline target _ => cases target
  | array target entry _ =>
      cases target
      rw [helement] at entry
      cases entry
  | @element schema e target _ _ listed =>
      cases target
      exact ⟨o, e, hcompile, listed, harrays⟩
  | object target kind _ _ =>
      cases target
      obtain ⟨_, hdeclared⟩ := classify_eq_object_iff.mp kind
      rw [helement] at hdeclared
      cases hdeclared

/-- Not every object with a property of no form is refused. -/
theorem not_forall_compile_error :
    ¬ ∀ (root : Json) (s : Store) (name p : String) (body : Json), ofValue root = .ok s →
      s.DeclaresObject name → propertyBody? root name p = some body → ¬ PropertyForm body →
      ∀ overrides, ∃ e, (s.compile name overrides {}).1 = .error e := by
  intro h
  obtain ⟨e, herror⟩ := h boilersDocument boilers "Boiler" "Reading" _ ofValue_boilersDocument
    ⟨_, by cbv⟩ propertyBody?_boilersDocument no_form_boilersDocument .empty
  obtain ⟨o, hcompile, -⟩ := Except.map_eq_ok_iff.mp compile_boiler
  rw [herror] at hcompile
  cases hcompile

end Store

end Taxonomy
