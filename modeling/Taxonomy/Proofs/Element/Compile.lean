import Taxonomy.Proofs.Element.Order
import Taxonomy.Proofs.Schema.Fault

/-!
# Compiling an element

Overrides are applied to the value of an element that is compiled already; they decide
neither whether it compiles nor any other facet.
-/

namespace Taxonomy

namespace ValueOverrides

theorem apply_unchanged (f : FieldDescriptor) : unchanged.apply f = f := rfl

/-- Overrides as a change of a facet: only the value is touched. -/
def adjust (o : ValueOverrides) (f : FieldDescriptor) : FieldDescriptor :=
  if f.facet = .value then o.apply f else f

end ValueOverrides

namespace CompiledElement

/-- The element with overrides applied to its value. -/
def override (e : CompiledElement) (o : ValueOverrides) : CompiledElement :=
  { e with facets := e.facets.map o.adjust }

/-- Each facet is the one without overrides, adjusted. -/
theorem field?_eq_adjust (name : String) (category : Category) (itemType : ItemType)
    (o : ValueOverrides) (facet : Facet) :
    field? name category itemType o facet =
      (field? name category itemType .unchanged facet).map o.adjust := by
  cases facet with
  | decimals | precision =>
      by_cases h : category = .number <;>
        simp [field?, h, ValueOverrides.adjust, countField, FieldDescriptor.plain]
  | endTime | startTime => simp [field?, ValueOverrides.adjust, FieldDescriptor.plain]
  | unit =>
      by_cases h : (category = .integer ∨ category = .number) ∧ itemType.hasUnits = true <;>
        simp [field?, h, ValueOverrides.adjust, choiceField, FieldDescriptor.plain]
  | value =>
      simp [field?, ValueOverrides.adjust, ValueOverrides.apply_unchanged, valueField_facet]

end CompiledElement

namespace Store

/-- Compiling with overrides is compiling without and then applying them. -/
theorem compileElement_eq_override (s : Store) (name : String) (o : ValueOverrides) :
    s.compileElement name o =
      (fun e => e.override o) <$> s.compileElement name .unchanged := by
  simp only [compileElement, map_bind, Except.pure_eq_ok, Except.map_ok,
    CompiledElement.override, CompiledElement.orderedFacets_eq, List.map_filterMap,
    ← CompiledElement.field?_eq_adjust]

/-- Whether an element compiles does not depend on overrides. -/
theorem exists_compileElement_iff {s : Store} {name : String} {o : ValueOverrides} :
    (∃ e, s.compileElement name o = .ok e) ↔ ∃ e, s.compileElement name .unchanged = .ok e := by
  rw [compileElement_eq_override]
  simp only [Except.map_eq_ok_iff]
  constructor
  · rintro ⟨_, e, he, _⟩
    exact ⟨e, he⟩
  · rintro ⟨e, he⟩
    exact ⟨_, e, he, rfl⟩

theorem compileElement_noCycle (s : Store) (name : String) (o : ValueOverrides) :
    NoCycle (s.compileElement name o) := by
  refine (s.element_noCycle name).bind fun definition => ?_
  have hsuperclass : NoCycle (s.superclassOf name) :=
    (s.element_noCycle name).bind fun e => categoryOf_noCycle name e
  refine hsuperclass.bind fun category => ?_
  refine (s.itemType_noCycle definition.itemType).bind fun itemType => ?_
  exact (s.itemTypeGroup_noCycle definition.itemTypeGroup).bind fun group => NoCycle.ok _

end Store

end Taxonomy
