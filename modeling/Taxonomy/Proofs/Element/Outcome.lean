import Mathlib.Data.List.Permutation
import Taxonomy.Proofs.Element.Facets

/-!
# When an element compiles

An element is read in four steps: its schema, the category of its superclass, its item type and its
group. Each step is described here by what stands in the document, in success and in failure, and
an element fails at the first step that does. If none does, the category and the item type decide
which facets there are.
-/

namespace Taxonomy

namespace Store

variable {s : Store} {name : String} {group : Option String} {o : ValueOverrides}
variable {e : CompiledElement} {definition : ElementDefinition} {err : TaxonomyError}

/-- The item type is declared, and its values are a map if it has any. -/
def DescribesItemType (s : Store) (name : String) : Prop :=
  ∃ entry, s.itemTypes.get? name = some entry ∧ ItemType.HasValueMap entry

/-- The group, if there is one, is declared and lists ids. The empty name is no group. -/
def DescribesGroup (s : Store) (group : Option String) : Prop :=
  ∀ name ∈ group, name ≠ "" →
    ∃ entry ids, s.itemTypeGroups.get? name = some entry ∧ ItemTypeGroup.Lists entry ids

/-- The document says all that the element of a name is made from. -/
def DescribesElement (s : Store) (name : String) : Prop :=
  ∃ definition category, s.schemas.get? name = some (.element definition) ∧
    definition.category? = some category ∧ s.DescribesItemType definition.itemType ∧
    s.DescribesGroup definition.itemTypeGroup

/-! ### Faults -/

/-- Why no element is declared under a name. -/
inductive DefinitionFault (s : Store) (name : String) : TaxonomyError → Prop
  | undeclared (h : s.schemas.get? name = none) : DefinitionFault s name (.unknownSchema name)
  | malformed {fault : ShapeFault} (h : s.schemas.get? name = some (.unrecognized fault)) :
      DefinitionFault s name (.malformedSchema name fault)
  | object {definition : ObjectDefinition} (h : s.schemas.get? name = some (.object definition)) :
      DefinitionFault s name (.notAnElement name)
  | array {items : String} (h : s.schemas.get? name = some (.array items)) :
      DefinitionFault s name (.notAnElement name)

/-- Why there is no item type of a name. -/
inductive ItemTypeFault (s : Store) (name : String) : TaxonomyError → Prop
  | undeclared (h : s.itemTypes.get? name = none) : ItemTypeFault s name (.unknownItemType name)
  | notAMap {entry value : Json} (h : s.itemTypes.get? name = some entry)
      (hvalue : entry.get? (ItemType.valuesKey entry) = some value)
      (hmap : ∀ members, value ≠ .obj members) :
      ItemTypeFault s name (.malformedSchema name (.values (ItemType.valuesKey entry)))

/-- Why there is no group although one is named. -/
inductive GroupFault (s : Store) (group : Option String) : TaxonomyError → Prop
  | undeclared {name : String} (hgroup : group = some name) (hname : name ≠ "")
      (h : s.itemTypeGroups.get? name = none) : GroupFault s group (.unknownItemTypeGroup name)
  | notAList {name : String} {entry value : Json} (hgroup : group = some name) (hname : name ≠ "")
      (h : s.itemTypeGroups.get? name = some entry) (hvalue : entry.get? "group" = some value)
      (hlist : ∀ items, value ≠ .arr items) :
      GroupFault s group (.malformedSchema name .groupNotAList)
  /-- The first item that is no string. -/
  | notAString {name : String} {entry id : Json} {ids : List String} {rest : List Json}
      (hgroup : group = some name) (hname : name ≠ "")
      (h : s.itemTypeGroups.get? name = some entry)
      (hvalue : entry.get? "group" = some (.arr (ids.map .str ++ id :: rest)))
      (hid : ∀ text, id ≠ .str text) :
      GroupFault s group (.malformedSchema name (.groupId id))

/-- The first thing that keeps an element from being compiled: its definition, then its superclass,
its item type and its group. -/
inductive ElementFault (s : Store) (name : String) : TaxonomyError → Prop
  | definition {err : TaxonomyError} (h : s.DefinitionFault name err) : ElementFault s name err
  | superclass {definition : ElementDefinition}
      (hdeclared : s.schemas.get? name = some (.element definition))
      (h : definition.category? = none) :
      ElementFault s name (.unknownSuperclass name definition.superclass)
  | itemType {definition : ElementDefinition} {category : Category} {err : TaxonomyError}
      (hdeclared : s.schemas.get? name = some (.element definition))
      (hcategory : definition.category? = some category)
      (h : s.ItemTypeFault definition.itemType err) : ElementFault s name err
  | group {definition : ElementDefinition} {category : Category} {err : TaxonomyError}
      (hdeclared : s.schemas.get? name = some (.element definition))
      (hcategory : definition.category? = some category)
      (hitemType : s.DescribesItemType definition.itemType)
      (h : s.GroupFault definition.itemTypeGroup err) : ElementFault s name err

theorem element_eq_error_iff : s.element name = .error err ↔ s.DefinitionFault name err := by
  constructor
  · intro h
    cases hentry : s.schemas.get? name with
    | none =>
        rw [element, lookup_of_none hentry] at h
        cases h
        exact .undeclared hentry
    | some found =>
        rw [element, lookup_of_some hentry] at h
        cases found with
        | element definition => cases h
        | object definition =>
            cases h
            exact .object hentry
        | array items =>
            cases h
            exact .array hentry
        | unrecognized fault =>
            cases h
            exact .malformed hentry
  · intro h
    cases h with
    | undeclared hentry =>
        rw [element, lookup_of_none hentry]
        rfl
    | malformed hentry | object hentry | array hentry =>
        rw [element, lookup_of_some hentry]
        rfl

theorem superclassOf_of_declared (h : s.schemas.get? name = some (.element definition)) :
    s.superclassOf name = categoryOf name definition := by
  rw [superclassOf, element_eq_ok_iff.mpr h, Except.ok_bind]

theorem categoryOf_eq_error_iff :
    categoryOf name definition = .error err ↔
      definition.category? = none ∧ .unknownSuperclass name definition.superclass = err := by
  cases hcategory : definition.category? <;> simp [categoryOf, hcategory]

theorem exists_itemType_iff : (∃ t, s.itemType name = .ok t) ↔ s.DescribesItemType name := by
  cases hentry : s.itemTypes.get? name with
  | none => simp [itemType, DescribesItemType, hentry]
  | some entry => simp [itemType, DescribesItemType, hentry, ItemType.exists_ofJson_iff]

theorem itemType_eq_error_iff : s.itemType name = .error err ↔ s.ItemTypeFault name err := by
  constructor
  · intro h
    cases hentry : s.itemTypes.get? name with
    | none =>
        rw [itemType, hentry] at h
        cases h
        exact .undeclared hentry
    | some entry =>
        rw [itemType, hentry] at h
        obtain ⟨⟨value, hvalue, hmap⟩, rfl⟩ := ItemType.ofJson_eq_error_iff.mp h
        exact .notAMap hentry hvalue hmap
  · intro h
    cases h with
    | undeclared hentry => rw [itemType, hentry]
    | notAMap hentry hvalue hmap =>
        rw [itemType, hentry]
        exact ItemType.ofJson_eq_error_iff.mpr ⟨⟨_, hvalue, hmap⟩, rfl⟩

/-- A name that is not empty asks for the group that is declared under it. -/
theorem itemTypeGroup_of_ne (h : name ≠ "") :
    s.itemTypeGroup (some name) =
      match s.itemTypeGroups.get? name with
      | some entry => some <$> ItemTypeGroup.ofJson name entry
      | none => .error (.unknownItemTypeGroup name) := by
  unfold itemTypeGroup
  split
  · rename_i hnone
    cases hnone
  · rename_i hempty
    exact absurd (Option.some.inj hempty) h
  · rename_i hsome
    cases hsome
    rfl

theorem exists_itemTypeGroup_iff :
    (∃ g, s.itemTypeGroup group = .ok g) ↔ s.DescribesGroup group := by
  cases group with
  | none => simp [itemTypeGroup, DescribesGroup]
  | some name =>
      by_cases hname : name = ""
      · simp [itemTypeGroup, DescribesGroup, hname]
      · cases hentry : s.itemTypeGroups.get? name with
        | none => simp [itemTypeGroup_of_ne hname, DescribesGroup, hname, hentry]
        | some entry =>
            have hread : (∃ g, ItemTypeGroup.ofJson name entry = .ok g) ↔
                ∃ ids, ItemTypeGroup.Lists entry ids :=
              ItemTypeGroup.exists_ofJson_iff
            simpa [itemTypeGroup_of_ne hname, DescribesGroup, hname, hentry,
              -Except.map_ok, Except.exists_map_ok_iff] using hread

theorem itemTypeGroup_eq_error_iff :
    s.itemTypeGroup group = .error err ↔ s.GroupFault group err := by
  constructor
  · intro h
    cases group with
    | none => cases h
    | some name =>
        by_cases hname : name = ""
        · subst hname
          cases h
        · rw [itemTypeGroup_of_ne hname] at h
          cases hentry : s.itemTypeGroups.get? name with
          | none =>
              rw [hentry] at h
              cases h
              exact .undeclared rfl hname hentry
          | some entry =>
              rw [hentry] at h
              rcases ItemTypeGroup.ofJson_eq_error_iff.mp (Except.map_eq_error_iff.mp h) with
                ⟨value, hvalue, hlist, rfl⟩ | ⟨ids, id, rest, hvalue, hid, rfl⟩
              · exact .notAList rfl hname hentry hvalue hlist
              · exact .notAString rfl hname hentry hvalue hid
  · intro h
    cases h with
    | undeclared hgroup hname hentry =>
        rw [hgroup, itemTypeGroup_of_ne hname, hentry]
    | notAList hgroup hname hentry hvalue hlist =>
        rw [hgroup, itemTypeGroup_of_ne hname, hentry]
        refine Except.map_eq_error_iff.mpr (ItemTypeGroup.ofJson_eq_error_iff.mpr (.inl ?_))
        exact ⟨_, hvalue, hlist, rfl⟩
    | notAString hgroup hname hentry hvalue hid =>
        rw [hgroup, itemTypeGroup_of_ne hname, hentry]
        refine Except.map_eq_error_iff.mpr (ItemTypeGroup.ofJson_eq_error_iff.mpr (.inr ?_))
        exact ⟨_, _, _, hvalue, hid, rfl⟩

/-! ### Elements -/

theorem exists_compileElement_iff_describesElement :
    (∃ e, s.compileElement name o = .ok e) ↔ s.DescribesElement name := by
  constructor
  · rintro ⟨e, h⟩
    obtain ⟨r, _⟩ := compileElement_eq_ok_iff.mp h
    exact ⟨r.definition, r.category, r.declared, r.has_category,
      exists_itemType_iff.mp ⟨_, r.has_itemType⟩, exists_itemTypeGroup_iff.mp ⟨_, r.has_group⟩⟩
  · rintro ⟨definition, category, hdeclared, hcategory, hitemType, hgroup⟩
    obtain ⟨itemType, hitemType⟩ := exists_itemType_iff.mpr hitemType
    obtain ⟨group, hgroup⟩ := exists_itemTypeGroup_iff.mpr hgroup
    exact ⟨_, compileElement_eq_ok_iff.mpr
      ⟨⟨definition, category, itemType, group, hdeclared, hcategory, hitemType, hgroup⟩, rfl⟩⟩

/-- The steps after the definition of an element is read. -/
theorem compileElement_of_declared (h : s.schemas.get? name = some (.element definition)) :
    s.compileElement name o = do
      let category ← categoryOf name definition
      let itemType ← s.itemType definition.itemType
      let group ← s.itemTypeGroup definition.itemTypeGroup
      let narrowed := itemType.grouped group
      return ⟨name, definition.description, category, narrowed, definition.itemTypeGroup,
        Facet.all.filterMap (CompiledElement.field? name category narrowed o)⟩ := by
  simp only [compileElement, element_eq_ok_iff.mpr h, Except.ok_bind, superclassOf_of_declared h,
    CompiledElement.orderedFacets_eq]

/-- An element fails at the first of its steps that does. -/
theorem compileElement_eq_error_iff :
    s.compileElement name o = .error err ↔ s.ElementFault name err := by
  constructor
  · intro h
    cases helement : s.element name with
    | error fault =>
        rw [compileElement, helement] at h
        cases h
        exact .definition (element_eq_error_iff.mp helement)
    | ok definition =>
        have hdeclared := element_eq_ok_iff.mp helement
        rw [compileElement_of_declared hdeclared] at h
        rcases Except.bind_eq_error_iff.mp h with h | ⟨category, hcategory, h⟩
        · obtain ⟨hnone, rfl⟩ := categoryOf_eq_error_iff.mp h
          exact .superclass hdeclared hnone
        have hcategory := categoryOf_eq_ok_iff.mp hcategory
        rcases Except.bind_eq_error_iff.mp h with h | ⟨itemType, hitemType, h⟩
        · exact .itemType hdeclared hcategory (itemType_eq_error_iff.mp h)
        have hitemType := exists_itemType_iff.mp ⟨itemType, hitemType⟩
        rcases Except.bind_eq_error_iff.mp h with h | ⟨group, _, h⟩
        · exact .group hdeclared hcategory hitemType (itemTypeGroup_eq_error_iff.mp h)
        · cases h
  · intro h
    cases h with
    | definition h =>
        rw [compileElement, element_eq_error_iff.mpr h, Except.error_bind]
    | superclass hdeclared h =>
        rw [compileElement_of_declared hdeclared, categoryOf_eq_error_iff.mpr ⟨h, rfl⟩,
          Except.error_bind]
    | itemType hdeclared hcategory h =>
        rw [compileElement_of_declared hdeclared, categoryOf_eq_ok_iff.mpr hcategory,
          Except.ok_bind, itemType_eq_error_iff.mpr h, Except.error_bind]
    | group hdeclared hcategory hitemType h =>
        obtain ⟨itemType, hitemType⟩ := exists_itemType_iff.mpr hitemType
        rw [compileElement_of_declared hdeclared, categoryOf_eq_ok_iff.mpr hcategory,
          Except.ok_bind, hitemType, Except.ok_bind, itemTypeGroup_eq_error_iff.mpr h,
          Except.error_bind]

namespace ElementReading

/-- Which facets the element has. -/
def HasFacet (r : s.ElementReading name) : Facet → Prop
  | .endTime | .startTime | .value => True
  | .decimals | .precision => r.category = .number
  | .unit => (r.category = .integer ∨ r.category = .number) ∧
      ∃ name description values, r.narrowed = .unit name description values ∧ values ≠ []

theorem isSome_field?_iff (r : s.ElementReading name) (o : ValueOverrides) (facet : Facet) :
    (r.field? o facet).isSome = true ↔ r.HasFacet facet := by
  cases facet with
  | endTime | startTime | value => simp [field?, CompiledElement.field?, HasFacet]
  | decimals | precision =>
      by_cases hnumber : r.category = .number <;>
        simp [field?, CompiledElement.field?, HasFacet, hnumber]
  | unit =>
      rw [HasFacet, ← ItemType.hasUnits_iff, field?, CompiledElement.field?]
      split
      · rename_i h
        simp [h]
      · rename_i h
        simp [h]

theorem mem_facetNames_iff (r : s.ElementReading name) (o : ValueOverrides) (facet : Facet) :
    facet ∈ (r.compiled o).facetNames ↔ r.HasFacet facet := by
  rw [r.facetNames_compiled, List.mem_filter, and_iff_right facet.mem_all, r.isSome_field?_iff]

theorem facetNames_eq (r : s.ElementReading name) (o o' : ValueOverrides) :
    (r.compiled o).facetNames = (r.compiled o').facetNames := by
  rw [r.facetNames_compiled, r.facetNames_compiled]
  refine List.filter_congr fun facet _ => Bool.eq_iff_iff.mpr ?_
  rw [r.isSome_field?_iff, r.isSome_field?_iff]

theorem facet?_eq_of_ne (r : s.ElementReading name) (o o' : ValueOverrides) {facet : Facet}
    (h : facet ≠ .value) : (r.compiled o).facet? facet = (r.compiled o').facet? facet := by
  rw [r.facet?_compiled, r.facet?_compiled]
  cases facet with
  | value => exact absurd rfl h
  | _ => rfl

end ElementReading

/-- An element compiles exactly if the document says all that it is made from, and fails with the
first thing that is missing or malformed. What it compiles to has the facets of its category and of
its item type in order, each under the name of the element, and overrides change only the value. -/
theorem compileElement_outcome (s : Store) (name : String) (o : ValueOverrides) :
    ((∃ e, s.compileElement name o = .ok e) ↔ s.DescribesElement name) ∧
    (∀ err, s.compileElement name o = .error err ↔ s.ElementFault name err) ∧
    ∀ e, s.compileElement name o = .ok e →
      (∃ r : s.ElementReading name, e.superclass = r.category ∧ e.itemType = r.narrowed ∧
        ∀ facet, facet ∈ e.facetNames ↔ r.HasFacet facet) ∧
      e.facetNames.Pairwise (fun a b => a.place < b.place) ∧
      (∀ f ∈ e.facets, f.element = name) ∧
      ∀ o', ∃ e', s.compileElement name o' = .ok e' ∧ { e' with facets := e.facets } = e ∧
        e'.facetNames = e.facetNames ∧
        ∀ facet, facet ≠ .value → e'.facet? facet = e.facet? facet := by
  refine ⟨exists_compileElement_iff_describesElement, fun err => compileElement_eq_error_iff, ?_⟩
  intro e h
  obtain ⟨r, rfl⟩ := compileElement_eq_ok_iff.mp h
  refine ⟨⟨r, rfl, rfl, r.mem_facetNames_iff o⟩, ?ordered, ?named, ?overridden⟩
  case ordered =>
    rw [r.facetNames_compiled]
    exact Facet.pairwise_place_all.filter _
  case named =>
    intro f hf
    obtain ⟨facet, _, hfield⟩ := List.mem_filterMap.mp hf
    exact CompiledElement.element_of_field? hfield
  case overridden =>
    intro o'
    exact ⟨r.compiled o', compileElement_eq_ok_iff.mpr ⟨r, rfl⟩, rfl, r.facetNames_eq o' o,
      fun facet hfacet => r.facet?_eq_of_ne o' o hfacet⟩

/-- The charge of a battery in one of two units, of which a group leaves one, and its age, of which
neither the superclass nor the item type is known. -/
def batteries : Store where
  source := none
  schemas := .ofList [
    ("Age", .element ⟨"Years", "", "Duration", none⟩),
    ("Charge", .element ⟨"TaxonomyElementNumber", "", "Percent", some "Whole"⟩)]
  itemTypes := .ofList [("Percent", .obj [("units",
    .obj [("Percent", .obj []), ("Promille", .obj [])])])]
  itemTypeGroups := .ofList [("Whole", .obj [("group", .arr [.str "Percent"])])]

/-- The charge has every facet, and the superclass of the age is at fault before its item type. -/
theorem compileElement_outcome_batteries :
    (∃ e, batteries.compileElement "Charge" .unchanged = .ok e ∧ e.facetNames = Facet.all ∧
      e.facetNames.Pairwise (fun a b => a.place < b.place) ∧
      ∀ f ∈ e.facets, f.element = "Charge") ∧
    batteries.ElementFault "Age" (.unknownSuperclass "Age" "Years") := by
  have hcompiled : CompiledElement.facetNames <$> batteries.compileElement "Charge" .unchanged =
      .ok Facet.all := by
    cbv
  have hfault : batteries.compileElement "Age" .unchanged =
      .error (.unknownSuperclass "Age" "Years") := by
    cbv
  obtain ⟨e, hcompile, hfacets⟩ := Except.map_eq_ok_iff.mp hcompiled
  have houtcome := (compileElement_outcome batteries "Charge" .unchanged).2.2 e hcompile
  obtain ⟨_, hordered, hnamed, _⟩ := houtcome
  exact ⟨⟨e, hcompile, hfacets, hordered, hnamed⟩,
    ((compileElement_outcome batteries "Age" .unchanged).2.1 _).mp hfault⟩

end Store

end Taxonomy
