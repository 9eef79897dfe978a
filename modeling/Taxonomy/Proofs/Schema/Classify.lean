import Taxonomy.Proofs.Outcome
import Taxonomy.Schema.Classify

/-!
# What the readers of a schema answer

The readers of a store look one name up and then go by the shape of its definition. Each of
them is described here by the entry it finds, so that proofs about compositions speak of entries
and not of readers.
-/

namespace Taxonomy.Store

variable {s : Store} {name : String}

/-- An object is declared under the name. -/
def DeclaresObject (s : Store) (name : String) : Prop :=
  ∃ definition, s.schemas.get? name = some (.object definition)

theorem lookup_of_some {definition : SchemaDefinition}
    (h : s.schemas.get? name = some definition) : s.lookup name = .ok definition := by
  rw [lookup, h]

theorem lookup_of_none (h : s.schemas.get? name = none) :
    s.lookup name = .error (.unknownSchema name) := by
  rw [lookup, h]

/-- The object reader succeeds exactly on the entries of object shape. -/
theorem object_eq_ok_iff {definition : ObjectDefinition} :
    s.object name = .ok definition ↔ s.schemas.get? name = some (.object definition) := by
  cases hentry : s.schemas.get? name with
  | none => simp [object, lookup_of_none hentry]
  | some found =>
      cases found <;> simp [object, lookup_of_some hentry]

/-- The element reader succeeds exactly on the entries of element shape. -/
theorem element_eq_ok_iff {definition : ElementDefinition} :
    s.element name = .ok definition ↔ s.schemas.get? name = some (.element definition) := by
  cases hentry : s.schemas.get? name with
  | none => simp [element, lookup_of_none hentry]
  | some found =>
      cases found <;> simp [element, lookup_of_some hentry]

theorem categoryOf_eq_ok_iff {e : ElementDefinition} {category : Category} :
    categoryOf name e = .ok category ↔ e.category? = some category := by
  cases hcategory : e.category? <;> simp [categoryOf, hcategory]

theorem classify_of_object {definition : ObjectDefinition}
    (h : s.schemas.get? name = some (.object definition)) : s.classify name = .ok .object := by
  rw [classify, lookup_of_some h]
  rfl

theorem classify_of_array {items : String}
    (h : s.schemas.get? name = some (.array items)) : s.classify name = .ok .array := by
  rw [classify, lookup_of_some h]
  rfl

/-- An element is classified by its superclass, and as nothing but an element. -/
theorem classify_of_element {e : ElementDefinition} (h : s.schemas.get? name = some (.element e)) :
    s.classify name = (fun _ => .element) <$> categoryOf name e := by
  rw [classify, lookup_of_some h, map_eq_pure_bind]
  rfl

/-- A name is classified as an object exactly if it is declared as one. -/
theorem classify_eq_object_iff : s.classify name = .ok .object ↔ s.DeclaresObject name := by
  constructor
  · intro h
    cases hentry : s.schemas.get? name with
    | none => simp [classify, lookup_of_none hentry] at h
    | some found =>
        cases found with
        | object definition => exact ⟨definition, hentry⟩
        | element e =>
            rw [classify_of_element hentry, Except.map_eq_ok_iff] at h
            obtain ⟨_, _, hkind⟩ := h
            cases hkind
        | array | unrecognized => simp [classify, lookup_of_some hentry] at h
  · rintro ⟨definition, h⟩
    exact classify_of_object h

end Taxonomy.Store
