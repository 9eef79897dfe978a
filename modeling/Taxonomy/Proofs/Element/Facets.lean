import Taxonomy.Proofs.Element.Compile
import Taxonomy.Proofs.ItemType.Reading

/-!
# The facets of a compiled element

An element compiles exactly if the document says everything that its facets are made from:
its definition, the category of its superclass, its item type and its group. What it compiles to is
then a function of this reading and the overrides; each facet carries the name of the element and
its own tag, so a facet is found under its tag and no facet is listed twice.
-/

namespace Taxonomy

namespace ItemType

theorem name_grouped (t : ItemType) (group : Option ItemTypeGroup) :
    (t.grouped group).name = t.name := by
  cases t <;> rfl

theorem name_of_ofJson {name : String} {entry : Json} {t : ItemType}
    (h : ofJson name entry = .ok t) : t.name = name := by
  rcases ofJson_eq_ok_iff.mp h with ⟨_, _, rfl⟩ | ⟨_, ⟨_, _, rfl⟩ | ⟨_, rfl⟩⟩
  · rfl
  · rfl
  · rfl

end ItemType

/-- Among values that carry the tags they are made for, the one with a given tag is found. -/
theorem find?_filterMap_of_tag {α β : Type} [BEq α] [LawfulBEq α] {make? : α → Option β}
    {tag : β → α} (htag : ∀ a b, make? a = some b → tag b = a) {tags : List α} {a : α}
    (ha : a ∈ tags) : (tags.filterMap make?).find? (fun b => tag b == a) = make? a := by
  cases hmake : make? a with
  | none =>
      rw [List.find?_eq_none]
      intro b hb
      obtain ⟨other, _, hother⟩ := List.mem_filterMap.mp hb
      rw [beq_iff_eq, htag other b hother]
      rintro rfl
      rw [hmake] at hother
      cases hother
  | some b =>
      have hmem : b ∈ tags.filterMap make? := List.mem_filterMap.mpr ⟨a, ha, hmake⟩
      have hfound : ((tags.filterMap make?).find? (fun b => tag b == a)).isSome = true :=
        List.find?_isSome.mpr ⟨b, hmem, beq_iff_eq.mpr (htag a b hmake)⟩
      obtain ⟨found, hfound⟩ := Option.isSome_iff_exists.mp hfound
      obtain ⟨other, _, hother⟩ := List.mem_filterMap.mp (List.mem_of_find?_eq_some hfound)
      have hsame : other = a := by
        rw [← htag other found hother]
        simpa using List.find?_some hfound
      rw [hfound, ← hother, hsame, hmake]

namespace CompiledElement

variable {name : String} {category : Category} {itemType : ItemType} {o : ValueOverrides}
variable {facet : Facet} {f : FieldDescriptor}

theorem stringField_element (name : String) (itemType : ItemType) :
    (stringField name itemType).element = name := by
  unfold stringField
  split
  · rfl
  · rfl
  · split <;> rfl

theorem valueField_element (name : String) (category : Category) (itemType : ItemType) :
    (valueField name category itemType).element = name := by
  cases category with
  | boolean | number => rfl
  | integer =>
      by_cases h : itemType.name = "Duration" <;>
        simp [valueField, h, countField, FieldDescriptor.plain]
  | string => exact stringField_element name itemType

/-- A facet of an element carries the name of the element. -/
theorem element_of_field? (h : field? name category itemType o facet = some f) :
    f.element = name := by
  cases facet with
  | endTime | startTime =>
      obtain rfl := field?_eq_some_iff.mp h
      rfl
  | decimals | precision =>
      obtain ⟨_, rfl⟩ := field?_eq_some_iff.mp h
      rfl
  | unit =>
      obtain ⟨_, _, rfl⟩ := field?_eq_some_iff.mp h
      rfl
  | value =>
      obtain rfl := field?_eq_some_iff.mp h
      exact valueField_element name category itemType

end CompiledElement

/-- What a document says about the element of a name. -/
structure Store.ElementReading (s : Store) (name : String) where
  definition : ElementDefinition
  category : Category
  itemType : ItemType
  group : Option ItemTypeGroup
  declared : s.schemas.get? name = some (.element definition)
  has_category : definition.category? = some category
  has_itemType : s.itemType definition.itemType = .ok itemType
  has_group : s.itemTypeGroup definition.itemTypeGroup = .ok group

namespace Store

variable {s : Store} {name : String} {o : ValueOverrides} {e : CompiledElement}

namespace ElementReading

/-- The item type narrowed to the group. -/
def narrowed (r : s.ElementReading name) : ItemType :=
  r.itemType.grouped r.group

/-- A facet of the element, if it has it. -/
def field? (r : s.ElementReading name) (o : ValueOverrides) (facet : Facet) :
    Option FieldDescriptor :=
  CompiledElement.field? name r.category r.narrowed o facet

/-- The compiled element. -/
def compiled (r : s.ElementReading name) (o : ValueOverrides) : CompiledElement where
  name := name
  description := r.definition.description
  superclass := r.category
  itemType := r.narrowed
  itemTypeGroup := r.definition.itemTypeGroup
  facets := Facet.all.filterMap (r.field? o)

theorem name_narrowed (r : s.ElementReading name) : r.narrowed.name = r.definition.itemType := by
  have h := r.has_itemType
  rw [narrowed, ItemType.name_grouped]
  unfold Store.itemType at h
  split at h
  · exact ItemType.name_of_ofJson h
  · cases h

/-- Under a tag the facet with this tag is found. -/
theorem facet?_compiled (r : s.ElementReading name) (o : ValueOverrides) (facet : Facet) :
    (r.compiled o).facet? facet = r.field? o facet := by
  exact find?_filterMap_of_tag (fun _ _ h => CompiledElement.facet_of_field? h) facet.mem_all

theorem facetNames_compiled (r : s.ElementReading name) (o : ValueOverrides) :
    (r.compiled o).facetNames = Facet.all.filter (fun facet => (r.field? o facet).isSome) := by
  have hguard : (fun facet => (r.field? o facet).map (·.facet)) =
      Option.guard (fun facet => (r.field? o facet).isSome) := by
    funext facet
    cases hfield : r.field? o facet with
    | none => simp [Option.guard, hfield]
    | some f =>
        have hfacet := CompiledElement.facet_of_field? hfield
        simp [Option.guard, hfield, hfacet]
  rw [CompiledElement.facetNames, compiled, List.map_filterMap, hguard, List.filterMap_eq_filter]

end ElementReading

/-- An element compiles exactly if the document has a reading of it, and to what the reading
gives. -/
theorem compileElement_eq_ok_iff :
    s.compileElement name o = .ok e ↔ ∃ r : s.ElementReading name, r.compiled o = e := by
  simp only [compileElement, superclassOf, Except.bind_eq_ok_iff, element_eq_ok_iff,
    CompiledElement.orderedFacets_eq, Except.pure_eq_ok, Except.ok.injEq]
  constructor
  · rintro ⟨definition, hdeclared, category, ⟨definition', hdeclared', hcategory⟩, itemType,
      hitemType, group, hgroup, rfl⟩
    -- The superclass is read from the definition anew, and it is the same definition.
    rw [hdeclared] at hdeclared'
    cases hdeclared'
    have hcategory := categoryOf_eq_ok_iff.mp hcategory
    exact ⟨⟨definition, category, itemType, group, hdeclared, hcategory, hitemType, hgroup⟩, rfl⟩
  · rintro ⟨r, rfl⟩
    have hcategory : categoryOf name r.definition = .ok r.category :=
      categoryOf_eq_ok_iff.mpr r.has_category
    exact ⟨r.definition, r.declared, r.category, ⟨r.definition, r.declared, hcategory⟩,
      r.itemType, r.has_itemType, r.group, r.has_group, rfl⟩

end Store

end Taxonomy
