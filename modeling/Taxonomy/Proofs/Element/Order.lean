import Taxonomy.Element.Compile

/-!
# Facets in order

The facets of an element are added group by group and sorted afterwards. Each of them belongs to one
place: which facet stands there, if any, is a question about the category and the item type alone.
The sorted facets are these, in the order of their places, since no two facets share a place.
-/

namespace Taxonomy

namespace Facet

theorem mem_all (facet : Facet) : facet ∈ all := by
  cases facet <;> decide

theorem pairwise_place_all : all.Pairwise (fun a b => a.place < b.place) := by
  decide

theorem place_inj {a b : Facet} (h : a.place = b.place) : a = b := by
  revert h
  cases a <;> cases b <;> decide

end Facet

namespace CompiledElement

variable {name : String} {category : Category} {itemType : ItemType} {o : ValueOverrides}
variable {facet : Facet} {f : FieldDescriptor}

/-- A facet of an element, if the element has it. -/
def field? (element : String) (category : Category) (itemType : ItemType)
    (overrides : ValueOverrides) (facet : Facet) : Option FieldDescriptor :=
  match facet with
  | .decimals => if category = .number then some (countField element .decimals) else none
  | .endTime => some (.plain element .endTime .dateTime)
  | .precision => if category = .number then some (countField element .precision) else none
  | .startTime => some (.plain element .startTime .dateTime)
  | .unit =>
    if (category = .integer ∨ category = .number) ∧ itemType.hasUnits = true then
      some (choiceField element .unit itemType)
    else none
  | .value => some (overrides.apply (valueField element category itemType))

/-- The facets of an element, each with the condition on which there is one. -/
theorem field?_eq_some_iff :
    field? name category itemType o facet = some f ↔
      match facet with
      | .endTime | .startTime => FieldDescriptor.plain name facet .dateTime = f
      | .decimals | .precision => category = .number ∧ countField name facet = f
      | .unit => (category = .integer ∨ category = .number) ∧ itemType.hasUnits = true ∧
          choiceField name .unit itemType = f
      | .value => o.apply (valueField name category itemType) = f := by
  cases facet <;> simp [field?, and_assoc]

theorem stringField_facet (name : String) (itemType : ItemType) :
    (stringField name itemType).facet = .value := by
  unfold stringField
  split
  · rfl
  · rfl
  · split <;> rfl

theorem valueField_facet (name : String) (category : Category) (itemType : ItemType) :
    (valueField name category itemType).facet = .value := by
  cases category with
  | boolean | number => rfl
  | integer =>
      by_cases h : itemType.name = "Duration" <;>
        simp [valueField, h, countField, FieldDescriptor.plain]
  | string => exact stringField_facet name itemType

/-- A facet of an element carries its own tag. -/
theorem facet_of_field? (h : field? name category itemType o facet = some f) : f.facet = facet := by
  cases facet with
  | endTime | startTime =>
      obtain rfl := field?_eq_some_iff.mp h
      rfl
  | decimals | precision =>
      obtain ⟨_, rfl⟩ := field?_eq_some_iff.mp h
      rfl
  | unit =>
      obtain ⟨_, _, rfl⟩ := field?_eq_some_iff.mp h
      rfl
  | value =>
      obtain rfl := field?_eq_some_iff.mp h
      exact valueField_facet name category itemType

/-- The facets that are added to an element are those that it has, the times first. -/
theorem addedFacets_eq (name : String) (category : Category) (itemType : ItemType)
    (o : ValueOverrides) :
    addedFacets name category itemType o =
      [.endTime, .startTime, .decimals, .precision, .unit, .value].filterMap
        (field? name category itemType o) := by
  cases category <;> cases hunits : itemType.hasUnits <;> simp [addedFacets, field?, hunits]

theorem pairwise_place_field? :
    (Facet.all.filterMap (field? name category itemType o)).Pairwise
      (fun f g => f.facet.place < g.facet.place) := by
  refine List.pairwise_filterMap.mpr (Facet.pairwise_place_all.imp ?_)
  intro a b hlt f hf g hg
  rwa [facet_of_field? hf, facet_of_field? hg]

/-- In order the facets of an element are those that it has of all facets. -/
theorem orderedFacets_eq (name : String) (category : Category) (itemType : ItemType)
    (o : ValueOverrides) :
    orderedFacets name category itemType o =
      Facet.all.filterMap (field? name category itemType o) := by
  have hsorted : (orderedFacets name category itemType o).Pairwise
      (fun f g => f.facet.place ≤ g.facet.place) := by
    have h := @List.pairwise_mergeSort FieldDescriptor (fun f g => f.facet.place ≤ g.facet.place)
      (by intro f g k; simpa using Nat.le_trans) (by intro f g; simpa using Nat.le_total _ _)
      (addedFacets name category itemType o)
    simpa only [orderedFacets, decide_eq_true_eq] using h
  have hperm : (orderedFacets name category itemType o).Perm
      (Facet.all.filterMap (field? name category itemType o)) := by
    refine (List.mergeSort_perm _ _).trans ?_
    rw [addedFacets_eq]
    exact List.Perm.filterMap _ (by decide)
  -- At one place there is one facet, so two sorted lists of the facets are equal.
  refine hperm.eq_of_pairwise ?_ hsorted (pairwise_place_field?.imp Nat.le_of_lt)
  intro f g hf hg hle hge
  obtain ⟨a, _, hfa⟩ := List.mem_filterMap.mp (hperm.mem_iff.mp hf)
  obtain ⟨b, _, hgb⟩ := List.mem_filterMap.mp hg
  have hplace : f.facet = g.facet := Facet.place_inj (Nat.le_antisymm hle hge)
  rw [facet_of_field? hfa, facet_of_field? hgb] at hplace
  subst hplace
  exact Option.some.inj (hfa.symm.trans hgb)

end CompiledElement

end Taxonomy
