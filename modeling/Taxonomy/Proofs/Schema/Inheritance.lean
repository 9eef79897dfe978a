import Mathlib.Data.List.Permutation
import Taxonomy.Proofs.Schema.Classify
import Taxonomy.Proofs.Schema.Shape

/-!
# Extending an object

A schema may extend an object of the document by a list of properties. Two places decide what is not
an object to extend but a primitive category: loading drops the four superclass schemas, by their
full names only, while a reference may use the bare name of a category as well. An object of
such a bare name is therefore declared and cannot be extended; every other one can.
-/

namespace Taxonomy

namespace SchemaDefinition

/-- The value extends the schema by the properties of the map, and its details name no item type. -/
def Extends (value : Json) (parent : String) (bodies : List (String × Json)) : Prop :=
  ∃ reference details, Inherits value reference details ∧ LastSegment parent reference ∧
    ¬ NamesItemType details ∧ (Json.obj details).get? "properties" = some (.obj bodies)

variable {value : Json} {parent child : String} {bodies : List (String × Json)}

/-- The definition is an object of the parent with the properties of the map. -/
def IsExtension (definition : SchemaDefinition) (parent : String)
    (bodies : List (String × Json)) : Prop :=
  ∃ o, definition = .object o ∧ o.parent = some parent ∧ ListsBodies bodies o.properties

theorem isExtension_ofJson (h : Extends value parent bodies)
    (hcategory : ∀ c : Category, ¬ c.IsNamed parent) (child : String) :
    (ofJson child value).IsExtension parent bodies := by
  obtain ⟨reference, details, hinherits, hlast, hitemType, hbodies⟩ := h
  have hnone : ¬ (Category.ofReference? parent).isSome = true := by
    rw [Category.isSome_ofReference?_iff, not_exists]
    exact hcategory
  rw [ofJson_of_inherits hinherits, referencedName_eq_iff.mpr hlast,
    ofParts_of_no_itemType hitemType, if_neg hnone, objectOf_of_hasBodies (.map hbodies)]
  exact ⟨_, rfl, rfl, listsBodies_propertiesOf bodies⟩

/-- What refers to a category and names no item type is no definition. -/
theorem ofJson_of_extends_category {c : Category} (h : Extends value parent bodies)
    (hcategory : c.IsNamed parent) (child : String) :
    ofJson child value = .unrecognized (.noItemType child) := by
  obtain ⟨reference, details, hinherits, hlast, hitemType, -⟩ := h
  rw [ofJson_of_inherits hinherits, referencedName_eq_iff.mpr hlast,
    ofParts_of_no_itemType hitemType,
    if_pos (Category.isSome_ofReference?_iff.mpr ⟨c, hcategory⟩)]

end SchemaDefinition

namespace Category

theorem isPrimitiveSchema_iff {name : String} :
    isPrimitiveSchema name = true ↔ ∃ c : Category, name = c.referenceName := by
  rw [isPrimitiveSchema, Bool.and_eq_true, isSome_ofReference?_iff]
  constructor
  · rintro ⟨hstart, c, rfl | hname⟩
    · obtain ⟨rest, hrest⟩ := Option.isSome_iff_exists.mp hstart
      exact absurd (Text.dropStart?_eq_some_iff.mp hrest) (c.not_schemaStart_name rest)
    · exact ⟨c, hname⟩
  · rintro ⟨c, rfl⟩
    have hstart : (c.referenceName).toList = schemaStart.toList ++ c.name.toList := by
      rw [referenceName, String.toList_append]
    exact ⟨Option.isSome_iff_exists.mpr ⟨_, Text.dropStart?_eq_some_iff.mpr hstart⟩, c, .inr rfl⟩

end Category

namespace Store

variable {root value : Json} {s : Store} {bodies : List (String × Json)} {parent child : String}

/-- The document has the value as what it says of the schema. -/
def Defines (root : Json) (name : String) (value : Json) : Prop :=
  ∃ members, schemasPart? root = some (.obj members) ∧ Entries.lookup name members = some value

theorem get?_of_defines (hload : ofValue root = .ok s) (h : Defines root child value)
    (hchild : ∀ c : Category, child ≠ c.referenceName) :
    s.schemas.get? child = some (SchemaDefinition.ofJson child value) := by
  obtain ⟨members, hschemas, hvalue⟩ := h
  obtain ⟨_, hschemas', hget⟩ := exists_schemas_of_ofJson (Except.mapError_eq_ok_iff.mp hload)
  cases hschemas.symm.trans hschemas'
  have hnot : ¬ Category.isPrimitiveSchema child = true := by
    rw [Category.isPrimitiveSchema_iff, not_exists]
    exact hchild
  rw [hget, if_neg hnot, hvalue, Option.map_some]

theorem get?_of_superclass (hload : ofValue root = .ok s)
    (h : ∃ c : Category, child = c.referenceName) : s.schemas.get? child = none := by
  obtain ⟨_, -, hget⟩ := exists_schemas_of_ofJson (Except.mapError_eq_ok_iff.mp hload)
  rw [hget, if_pos (Category.isPrimitiveSchema_iff.mpr h)]

theorem ne_referenceName_of_declared {definition : SchemaDefinition} (hload : ofValue root = .ok s)
    (h : s.schemas.get? parent = some definition) (c : Category) : parent ≠ c.referenceName := by
  intro hname
  rw [get?_of_superclass hload ⟨c, hname⟩] at h
  cases h

/-- A declared object is extended by whatever refers to it, if its name is not the bare name of a
category; what refers to one of these names is taken for an element that lacks its item type. The
superclass schemas are not loaded, so that none of them is an extension in the store. -/
theorem extension_of_declared {o : ObjectDefinition} (hload : ofValue root = .ok s)
    (hparent : s.schemas.get? parent = some (.object o)) (hdefines : Defines root child value)
    (hextends : SchemaDefinition.Extends value parent bodies) :
    ((∀ c : Category, parent ≠ c.name) →
        (SchemaDefinition.ofJson child value).IsExtension parent bodies ∧
        ((∀ c : Category, child ≠ c.referenceName) → s.classify child = .ok .object)) ∧
      ((∃ c : Category, parent = c.name) →
        SchemaDefinition.ofJson child value = .unrecognized (.noItemType child) ∧
        ((∀ c : Category, child ≠ c.referenceName) →
          s.classify child = .error (.malformedSchema child (.noItemType child)))) ∧
      ((∃ c : Category, child = c.referenceName) →
        s.classify child = .error (.unknownSchema child)) := by
  refine ⟨fun hbare => ?_, ?_, fun hchild => ?_⟩
  · have hcategory : ∀ c : Category, ¬ c.IsNamed parent := fun c hnamed =>
      hnamed.elim (hbare c) (ne_referenceName_of_declared hload hparent c)
    have hextension := SchemaDefinition.isExtension_ofJson hextends hcategory child
    refine ⟨hextension, fun hchild => ?_⟩
    obtain ⟨o', ho', -⟩ := hextension
    exact classify_eq_object_iff.mpr ⟨o', by rw [get?_of_defines hload hdefines hchild, ho']⟩
  · rintro ⟨c, hname⟩
    have hread := SchemaDefinition.ofJson_of_extends_category hextends (c := c) (.inl hname) child
    refine ⟨hread, fun hchild => ?_⟩
    rw [classify, lookup, get?_of_defines hload hdefines hchild, hread]
    rfl
  · rw [classify, lookup, get?_of_superclass hload hchild]
    rfl

/-- What extends the schema of a reference by a scale. -/
def scaled (reference : String) : Json :=
  .obj [("allOf", .arr [.obj [("$ref", .str reference)],
    .obj [("properties", .obj [("Scale", .obj [])])]])]

/-- A meter extends a gauge, and a count extends what is called as a category is. -/
def metersDocument : Json :=
  .obj [("schemas", .obj [
    ("Count", scaled "#/schemas/Number"),
    ("Gauge", .obj [("type", .str "object")]),
    ("Meter", scaled "#/schemas/Gauge"),
    ("Number", .obj [("type", .str "object")]),
    ("TaxonomyElementNumber", scaled "#/schemas/Gauge")])]

/-- The store of the meters. -/
def meters : Store where
  source := none
  schemas := .ofList [
    ("Count", .unrecognized (.noItemType "Count")),
    ("Gauge", .object ⟨none, "", []⟩),
    ("Meter", .object ⟨some "Gauge", "", [⟨"Scale", .schema "Scale"⟩]⟩),
    ("Number", .object ⟨none, "", []⟩)]
  itemTypes := .empty
  itemTypeGroups := .empty

theorem ofValue_metersDocument : ofValue metersDocument = .ok meters := by
  rfl

theorem extends_scaled {reference : String} (h : SchemaDefinition.LastSegment parent reference) :
    SchemaDefinition.Extends (scaled reference) parent [("Scale", .obj [])] := by
  refine ⟨reference, _, ⟨_, rfl, rfl⟩, h, ?_, rfl⟩
  rw [← SchemaDefinition.isSome_itemTypeName?_iff]
  decide

theorem lastSegment_gauge : SchemaDefinition.LastSegment "Gauge" "#/schemas/Gauge" :=
  ⟨by decide, .inr ⟨"#/schemas", by decide⟩⟩

theorem lastSegment_number : SchemaDefinition.LastSegment "Number" "#/schemas/Number" :=
  ⟨by decide, .inr ⟨"#/schemas", by decide⟩⟩

theorem defines_metersDocument {value : Json}
    (h : (metersDocument.get? "schemas").bind (·.get? child) = some value) :
    Defines metersDocument child value :=
  ⟨_, rfl, h⟩

/-- The meter is an extension of the gauge. -/
theorem extension_of_declared_meter :
    (SchemaDefinition.ofJson "Meter" (scaled "#/schemas/Gauge")).IsExtension "Gauge"
        [("Scale", .obj [])] ∧
      meters.classify "Meter" = .ok .object := by
  have hgauge : meters.schemas.get? "Gauge" = some (.object ⟨none, "", []⟩) := by
    cbv
  have hmeter : Defines metersDocument "Meter" (scaled "#/schemas/Gauge") :=
    defines_metersDocument (by rfl)
  obtain ⟨hextension, -⟩ := extension_of_declared ofValue_metersDocument hgauge hmeter
    (extends_scaled lastSegment_gauge)
  obtain ⟨hread, hclassify⟩ := hextension (fun c => by cases c <;> decide)
  exact ⟨hread, hclassify fun c => by cases c <;> decide⟩

/-- Neither the count, which extends a declared object of the bare name of a category, nor what has
the name of a superclass schema is an extension. -/
theorem not_extension_meters :
    ofValue metersDocument = .ok meters ∧
      (meters.schemas.get? "Number" = some (.object ⟨none, "", []⟩) ∧
        Defines metersDocument "Count" (scaled "#/schemas/Number") ∧
        SchemaDefinition.Extends (scaled "#/schemas/Number") "Number" [("Scale", .obj [])] ∧
        ¬ (SchemaDefinition.ofJson "Count" (scaled "#/schemas/Number")).IsExtension "Number"
          [("Scale", .obj [])] ∧
        meters.classify "Count" ≠ .ok .object) ∧
      (meters.schemas.get? "Gauge" = some (.object ⟨none, "", []⟩) ∧
        Defines metersDocument "TaxonomyElementNumber" (scaled "#/schemas/Gauge") ∧
        SchemaDefinition.Extends (scaled "#/schemas/Gauge") "Gauge" [("Scale", .obj [])] ∧
        meters.classify "TaxonomyElementNumber" ≠ .ok .object) := by
  refine ⟨ofValue_metersDocument, ⟨by cbv, defines_metersDocument (by rfl),
    extends_scaled lastSegment_number, ?_, ?_⟩, ⟨by cbv, defines_metersDocument (by rfl),
    extends_scaled lastSegment_gauge, ?_⟩⟩
  · rintro ⟨o, hread, -⟩
    have hunrecognized := SchemaDefinition.ofJson_of_extends_category (c := .number)
      (extends_scaled lastSegment_number) (.inl rfl) "Count"
    rw [hread] at hunrecognized
    cases hunrecognized
  · have hcount : meters.classify "Count" =
        .error (.malformedSchema "Count" (.noItemType "Count")) := by
      cbv
    simp [hcount]
  · have hunknown : meters.classify "TaxonomyElementNumber" =
        .error (.unknownSchema "TaxonomyElementNumber") := by
      cbv
    simp [hunknown]

end Store

end Taxonomy
