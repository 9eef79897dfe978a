import Taxonomy.Proofs.ItemType.Reading
import Taxonomy.Proofs.Schema.Classify

/-!
# Faults of single definitions

A cycle is a fault of several definitions together. The readers of a document look at one
definition at a time, and none of them ever reports a cycle.
-/

namespace Taxonomy

/-- The result is not the report of a cycle. -/
def NoCycle {α : Type} (x : Except TaxonomyError α) : Prop :=
  ∀ cycle, x ≠ .error (.cyclicSchema cycle)

namespace NoCycle

variable {α β : Type}

theorem ok (a : α) : NoCycle (.ok a) := by
  intro cycle h
  cases h

theorem bind {x : Except TaxonomyError α} {f : α → Except TaxonomyError β}
    (hx : NoCycle x) (hf : ∀ a, NoCycle (f a)) : NoCycle (x >>= f) := by
  intro cycle h
  rcases Except.bind_eq_error_iff.mp h with hfault | ⟨a, _, hfault⟩
  · exact hx cycle hfault
  · exact hf a cycle hfault

theorem map {x : Except TaxonomyError α} (hx : NoCycle x) (f : α → β) : NoCycle (f <$> x) := by
  intro cycle h
  exact hx cycle (Except.map_eq_error_iff.mp h)

end NoCycle

theorem ItemType.ofJson_noCycle (name : String) (entry : Json) : NoCycle (ofJson name entry) := by
  intro cycle h
  obtain ⟨_, herr⟩ := ofJson_eq_error_iff.mp h
  cases herr

theorem ItemTypeGroup.ofJson_noCycle (name : String) (entry : Json) :
    NoCycle (ofJson name entry) := by
  intro cycle h
  rcases ofJson_eq_error_iff.mp h with ⟨_, _, _, herr⟩ | ⟨_, _, _, _, _, herr⟩
  · cases herr
  · cases herr

namespace Store

theorem categoryOf_noCycle (name : String) (e : ElementDefinition) :
    NoCycle (categoryOf name e) := by
  intro cycle h
  cases hcategory : e.category? <;> simp [categoryOf, hcategory] at h

variable (s : Store) (name : String)

theorem lookup_noCycle : NoCycle (s.lookup name) := by
  intro cycle h
  cases hentry : s.schemas.get? name <;> simp [lookup, hentry] at h

theorem element_noCycle : NoCycle (s.element name) := by
  refine (s.lookup_noCycle name).bind fun definition => ?_
  intro cycle h
  cases definition <;> cases h

theorem object_noCycle : NoCycle (s.object name) := by
  refine (s.lookup_noCycle name).bind fun definition => ?_
  intro cycle h
  cases definition <;> cases h

theorem itemType_noCycle : NoCycle (s.itemType name) := by
  rw [itemType]
  cases s.itemTypes.get? name with
  | some entry => exact ItemType.ofJson_noCycle name entry
  | none =>
      intro cycle h
      cases h

theorem itemTypeGroup_noCycle (group : Option String) : NoCycle (s.itemTypeGroup group) := by
  unfold itemTypeGroup
  split
  · exact NoCycle.ok _
  · exact NoCycle.ok _
  · rename_i name _
    cases s.itemTypeGroups.get? name with
    | some entry => exact (ItemTypeGroup.ofJson_noCycle name entry).map some
    | none =>
        intro cycle h
        cases h

end Store

end Taxonomy
