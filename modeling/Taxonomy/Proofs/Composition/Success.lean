import Taxonomy.Proofs.Composition.Memory
import Taxonomy.Proofs.Element.Compile

/-!
# When an object compiles

An object compiles exactly if it is declared and everything it reaches is in order: each
reached object has its parent declared, the names in its properties classify, the elements among
them compile, and it is on no cycle. The condition speaks of the document alone. Overrides are not
in it, and neither are cycles that go through array properties or through parents, because the
composition graph has no such edges.
-/

namespace Taxonomy.Store

variable {s : Store} {path : List String} {name : String} {overrides : ObjectOverrides}
variable {nested : String → Except TaxonomyError CompiledObject}

/-- What an object definition needs from the other entries that it names. -/
structure Supported (s : Store) (definition : ObjectDefinition) : Prop where
  parent : ∀ parent ∈ definition.parent, s.DeclaresObject parent
  classified : ∀ p ∈ definition.properties, ∀ target, p.target = .schema target →
    ∃ kind, s.classify target = .ok kind
  elements : ∀ p ∈ definition.properties, ∀ target, p.target = .schema target →
    s.classify target = .ok .element → ∃ e, s.compileElement target .unchanged = .ok e

/-- An element that compiles has one of the categories. -/
theorem classify_of_compileElement {e : CompiledElement} {o : ValueOverrides}
    (h : s.compileElement name o = .ok e) : s.classify name = .ok .element := by
  obtain ⟨_, _, category, hcategory, _⟩ := by
    simpa only [compileElement, Except.bind_eq_ok_iff] using h
  rw [superclassOf, Except.bind_eq_ok_iff] at hcategory
  obtain ⟨definition, hdefinition, hcategory⟩ := hcategory
  rw [element, Except.bind_eq_ok_iff] at hdefinition
  obtain ⟨entry, hentry, hdefinition⟩ := hdefinition
  cases entry with
  | element e =>
      cases hdefinition
      simp [classify, hentry, hcategory]
  | object | array | unrecognized => cases hdefinition

/-- A property that names an element is composed if the element compiles, whatever the overrides. -/
theorem exists_composeProperty_of_element_iff {p : PropertyDefinition} {target : String}
    {definition : ElementDefinition} (htarget : p.target = .schema target)
    (hentry : s.schemas.get? target = some (.element definition)) :
    (∃ compiled, s.composeProperty overrides nested p = .ok compiled) ↔
      ∃ e, s.compileElement target .unchanged = .ok e := by
  rw [← exists_compileElement_iff (o := overrides.at p.name)]
  simp [composeProperty, htarget, lookup_of_some hentry, Except.map_eq_ok_iff]

/-- A property is composed if its target classifies, compiles if it is an element, and is composed
if it is an object. -/
theorem exists_composeProperty_iff {p : PropertyDefinition} :
    (∃ compiled, s.composeProperty overrides nested p = .ok compiled) ↔
      ∀ target, p.target = .schema target →
        (∃ kind, s.classify target = .ok kind) ∧
        (s.classify target = .ok .element → ∃ e, s.compileElement target .unchanged = .ok e) ∧
        (s.DeclaresObject target → ∃ o, nested target = .ok o) := by
  cases htarget : p.target with
  | array items => simp [composeProperty, htarget]
  | schema target =>
      simp only [PropertyTarget.schema.injEq, forall_eq']
      cases hentry : s.schemas.get? target with
      | none => simp [composeProperty, htarget, classify, lookup_of_none hentry]
      | some entry =>
          cases entry with
          | array items =>
              simp [composeProperty, htarget, classify_of_array hentry, lookup_of_some hentry,
                DeclaresObject, hentry]
          | unrecognized fault =>
              simp [composeProperty, htarget, classify, lookup_of_some hentry]
          | object definition =>
              simp [composeProperty, htarget, classify_of_object hentry, lookup_of_some hentry,
                DeclaresObject, hentry, Except.map_eq_ok_iff]
          | element definition =>
              rw [exists_composeProperty_of_element_iff htarget hentry]
              constructor
              · rintro ⟨e, he⟩
                have hnot : ¬ s.DeclaresObject target := by simp [DeclaresObject, hentry]
                exact ⟨⟨_, classify_of_compileElement he⟩, fun _ => ⟨e, he⟩,
                  fun h => absurd h hnot⟩
              · rintro ⟨⟨kind, hkind⟩, helement, _⟩
                refine helement ?_
                rw [classify_of_element hentry, Except.map_eq_ok_iff] at hkind ⊢
                obtain ⟨category, hcategory, _⟩ := hkind
                exact ⟨category, hcategory, rfl⟩

/-- The definition of an object that composes has what it needs. -/
theorem supported_of_composeOn {o : CompiledObject} {definition : ObjectDefinition}
    (h : s.composeOn path name overrides = .ok o)
    (hentry : s.schemas.get? name = some (.object definition)) : s.Supported definition := by
  obtain ⟨_, definition', hdefinition, parts, hparts, _⟩ := composeOn_eq_ok_iff.mp h
  obtain ⟨hentry', hparent⟩ := objectWithParent_eq_ok_iff.mp hdefinition
  rw [hentry'] at hentry
  cases hentry
  have hproperties := exists_composeParts_iff.mp ⟨parts, hparts⟩
  exact {
    parent := hparent
    classified := fun p hp target htarget =>
      (exists_composeProperty_iff.mp (hproperties p hp) target htarget).1
    elements := fun p hp target htarget =>
      (exists_composeProperty_iff.mp (hproperties p hp) target htarget).2.1 }

/-- An object composes on a path if nothing it reaches is on the path or on a cycle, and every
reached definition has what it needs. -/
theorem exists_composeOn_of_supported (hdeclared : s.DeclaresObject name)
    (h : ∀ x, s.Reaches name x → x ∉ path ∧ ¬ s.OnCycle x ∧
      ∀ definition, s.schemas.get? x = some (.object definition) → s.Supported definition) :
    ∃ o, s.composeOn path name overrides = .ok o := by
  induction path, name using composition_induction s generalizing overrides with
  | step path name ih =>
      obtain ⟨definition, hentry⟩ := hdeclared
      obtain ⟨hpath, hcycle, hsupported⟩ := h name .refl
      have hneeds := hsupported definition hentry
      have hdefinition := objectWithParent_eq_ok_iff.mpr ⟨hentry, hneeds.parent⟩
      obtain ⟨parts, hparts⟩ :
          ∃ parts, s.composeParts overrides
            (fun target => s.composeOn (path ++ [name]) target .empty) definition.properties =
              .ok parts := by
        refine exists_composeParts_iff.mpr fun p hp => exists_composeProperty_iff.mpr ?_
        intro target htarget
        refine ⟨hneeds.classified p hp target htarget, hneeds.elements p hp target htarget, ?_⟩
        intro hobject
        have hstep := composes_of_target hdefinition hp htarget hobject
        refine ih definition hpath hdefinition target hobject fun x hx => ?_
        obtain ⟨hx', hrest⟩ := h x (.head hstep hx)
        refine ⟨?_, hrest⟩
        -- The name itself cannot be reached again, because it is on no cycle.
        simp only [List.mem_append, List.mem_singleton, not_or]
        refine ⟨hx', ?_⟩
        rintro rfl
        exact hcycle (Relation.TransGen.head' hstep hx)
      exact ⟨_, composeOn_eq_ok_iff.mpr ⟨hpath, definition, hdefinition, parts, hparts, rfl⟩⟩

/-- A new compiler compiles an object, whatever the overrides, exactly if the object is declared and
every object that it reaches is on no cycle and has a definition with all that it needs. -/
theorem exists_compile_iff (s : Store) (name : String) (overrides : ObjectOverrides) :
    (∃ o, (s.compile name overrides {}).1 = .ok o) ↔
      s.DeclaresObject name ∧ ∀ x, s.Reaches name x → ¬ s.OnCycle x ∧
        ∀ definition, s.schemas.get? x = some (.object definition) → s.Supported definition := by
  rw [(s.compile_agrees name overrides {} s.sound_empty).1]
  constructor
  · rintro ⟨o, ho⟩
    obtain ⟨_, definition, hdefinition, _⟩ := composeOn_eq_ok_iff.mp ho
    refine ⟨⟨definition, (objectWithParent_eq_ok_iff.mp hdefinition).1⟩, fun x hx => ?_⟩
    obtain ⟨longer, _, o', _, ho'⟩ := exists_composeOn_of_reaches ho hx
    exact ⟨not_onCycle_of_composeOn ho', fun _ hentry => supported_of_composeOn ho' hentry⟩
  · rintro ⟨hdeclared, h⟩
    exact exists_composeOn_of_supported hdeclared fun x hx => ⟨List.not_mem_nil, h x hx⟩

/-- A shelf and its boards are parents of each other, a board carries a stack of shelves, and both
sides of a shelf are boards. -/
def shelves : Store where
  source := none
  schemas := .ofList [
    ("Board", .object ⟨some "Shelf", "", [⟨"Stack", .schema "Shelves"⟩]⟩),
    ("Shelf", .object ⟨some "Board", "", [⟨"Left", .schema "Board"⟩, ⟨"Right", .schema "Board"⟩]⟩),
    ("Shelves", .array "Shelf")]
  itemTypes := .empty
  itemTypeGroups := .empty

-- A cycle of parents, a cycle through an array and a part met twice are no faults.
example : (shelves.compile "Shelf" .empty {}).1.toBool = true := by cbv

end Taxonomy.Store
