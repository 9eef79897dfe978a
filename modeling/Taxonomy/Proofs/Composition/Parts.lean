import Taxonomy.Proofs.Composition.Success
import Taxonomy.Proofs.Element.Facets
import Taxonomy.Usage

/-!
# The parts of an object

A composed object lists its elements and its arrays under their properties, in property
order. What a property stands for is decided by the entry that it names, so the names of the
elements and the items of the arrays are read off the definition, before anything is compiled.
-/

namespace Taxonomy

/-- The properties that the parts are listed under. -/
def Parts.properties (p : Parts) : List String :=
  p.elements.map (·.1) ++ p.objects.map (·.1) ++ p.arrays.map (·.property)

/-- A part is listed once, under its property. -/
theorem Parts.perm_properties_add (p : Parts) (property : String) (part : CompiledSchema) :
    (p.add property part).properties.Perm (property :: p.properties) := by
  cases part with
  | element e => exact List.Perm.refl _
  | object o =>
      simp only [add, addObject, properties, List.map_cons, List.append_assoc, List.cons_append]
      exact List.perm_middle
  | array items =>
      simp only [add, addArray, properties, List.map_cons]
      exact List.perm_middle

/-- The properties that an object's elements, nested objects and arrays are listed under. -/
def CompiledObject.properties (o : CompiledObject) : List String :=
  o.elements.map (·.1) ++ o.objects.map (·.1) ++ o.arrays.map (·.property)

/-- The part is the object itself, or it is nested in it at some depth. -/
inductive CompiledObject.Contains : CompiledObject → CompiledObject → Prop
  | refl (o : CompiledObject) : Contains o o
  | nested {o inner part : CompiledObject} {property : String}
      (inside : (property, inner) ∈ o.objects) (contained : Contains inner part) : Contains o part

namespace Store

variable {s : Store} {name : String} {overrides : ObjectOverrides} {parts : Parts}
variable {nested : String → Except TaxonomyError CompiledObject} {part : CompiledSchema}
variable {p : PropertyDefinition} {properties : List PropertyDefinition}
variable {definition : ObjectDefinition} {o : CompiledObject} {e : CompiledElement}

/-- The element that a property names, if it names one. -/
def elementOf? (s : Store) (target : PropertyTarget) : Option String :=
  match target with
  | .array _ => none
  | .schema name =>
    match s.schemas.get? name with
    | some (.element _) => some name
    | _ => none

theorem name_of_compileElement {target : String} {adjustments : ValueOverrides}
    (h : s.compileElement target adjustments = .ok e) : e.name = target := by
  obtain ⟨r, rfl⟩ := compileElement_eq_ok_iff.mp h
  rfl

/-- A property stands for an element, an object or an array, by the entry that it names. -/
theorem composeProperty_cases (h : s.composeProperty overrides nested p = .ok part) :
    (∃ e, part = .element e ∧ s.elementOf? p.target = some e.name ∧
      s.arrayItemsOf? p.target = none ∧
      s.compileElement e.name (overrides.at p.name) = .ok e) ∨
    (∃ o, part = .object o ∧ s.elementOf? p.target = none ∧ s.arrayItemsOf? p.target = none) ∨
    ∃ items, part = .array items ∧ s.elementOf? p.target = none ∧
      s.arrayItemsOf? p.target = some items := by
  cases htarget : p.target with
  | array items =>
      simp only [composeProperty, htarget, Except.ok.injEq] at h
      exact .inr (.inr ⟨items, h.symm, rfl, rfl⟩)
  | schema target =>
      cases hentry : s.schemas.get? target with
      | none => simp [composeProperty, htarget, lookup_of_none hentry] at h
      | some entry =>
          simp only [composeProperty, htarget, lookup_of_some hentry, Except.ok_bind] at h
          -- The shape of the entry decides what the property stands for and what both readers see.
          cases entry with
          | element _ =>
              obtain ⟨e, he, rfl⟩ := Except.map_eq_ok_iff.mp h
              have hname := name_of_compileElement he
              subst hname
              exact .inl ⟨e, rfl, by simp [elementOf?, hentry], by simp [arrayItemsOf?, hentry], he⟩
          | object _ =>
              obtain ⟨o, _, rfl⟩ := Except.map_eq_ok_iff.mp h
              exact .inr (.inl
                ⟨o, rfl, by simp [elementOf?, hentry], by simp [arrayItemsOf?, hentry]⟩)
          | array items =>
              cases h
              exact .inr (.inr
                ⟨items, rfl, by simp [elementOf?, hentry], by simp [arrayItemsOf?, hentry]⟩)
          | unrecognized _ => cases h

theorem composeParts_cons_eq_ok_iff {rest : List PropertyDefinition} :
    s.composeParts overrides nested (p :: rest) = .ok parts ↔
      ∃ part, s.composeProperty overrides nested p = .ok part ∧
        ∃ others, s.composeParts overrides nested rest = .ok others ∧
          others.add p.name part = parts := by
  simp only [composeParts_cons, Except.bind_eq_ok_iff, Except.pure_eq_ok, Except.ok.injEq]

/-- The elements are those that the properties name, in property order. -/
theorem elementNames_of_composeParts
    (h : s.composeParts overrides nested properties = .ok parts) :
    parts.elements.map (·.2.name) = properties.filterMap (fun p => s.elementOf? p.target) := by
  induction properties generalizing parts with
  | nil =>
      cases h
      rfl
  | cons p rest ih =>
      obtain ⟨part, hpart, others, hothers, rfl⟩ := composeParts_cons_eq_ok_iff.mp h
      rw [List.filterMap_cons, ← ih hothers]
      rcases composeProperty_cases hpart with
        ⟨e, rfl, hname, _⟩ | ⟨o, rfl, hname, _⟩ | ⟨items, rfl, hname, _⟩ <;>
        rw [hname] <;> rfl

/-- The arrays are the array properties with their items, in property order. -/
theorem arrays_of_composeParts (h : s.composeParts overrides nested properties = .ok parts) :
    parts.arrays = properties.filterMap (fun p =>
      (s.arrayItemsOf? p.target).map (ArrayUsage.mk p.name)) := by
  induction properties generalizing parts with
  | nil =>
      cases h
      rfl
  | cons p rest ih =>
      obtain ⟨part, hpart, others, hothers, rfl⟩ := composeParts_cons_eq_ok_iff.mp h
      rw [List.filterMap_cons, ← ih hothers]
      rcases composeProperty_cases hpart with
        ⟨e, rfl, _, hitems, _⟩ | ⟨o, rfl, _, hitems⟩ | ⟨items, rfl, _, hitems⟩ <;>
        rw [hitems] <;> rfl

/-- Every element is compiled with the overrides of its property. -/
theorem compileElement_of_mem_composeParts
    (h : s.composeParts overrides nested properties = .ok parts) {entry : String × CompiledElement}
    (hentry : entry ∈ parts.elements) :
    s.compileElement entry.2.name (overrides.at entry.1) = .ok entry.2 := by
  induction properties generalizing parts with
  | nil =>
      cases h
      cases hentry
  | cons p rest ih =>
      obtain ⟨part, hpart, others, hothers, rfl⟩ := composeParts_cons_eq_ok_iff.mp h
      rcases composeProperty_cases hpart with ⟨e, rfl, _, _, he⟩ | ⟨o, rfl, _⟩ | ⟨items, rfl, _⟩
      · rcases List.mem_cons.mp hentry with rfl | hentry
        · exact he
        · exact ih hothers hentry
      · exact ih hothers hentry
      · exact ih hothers hentry

/-- A property that stands for an object names it, and the object is what is nested under the
name. -/
theorem exists_target_of_composeProperty
    (h : s.composeProperty overrides nested p = .ok (.object o)) :
    ∃ target, p.target = .schema target ∧ s.DeclaresObject target ∧ nested target = .ok o := by
  cases htarget : p.target with
  | array items => simp [composeProperty, htarget] at h
  | schema target =>
      cases hentry : s.schemas.get? target with
      | none => simp [composeProperty, htarget, lookup_of_none hentry] at h
      | some entry =>
          simp only [composeProperty, htarget, lookup_of_some hentry, Except.ok_bind] at h
          cases entry with
          | object definition =>
              obtain ⟨o', ho', hsame⟩ := Except.map_eq_ok_iff.mp h
              cases hsame
              exact ⟨target, rfl, ⟨definition, hentry⟩, ho'⟩
          | element _ =>
              obtain ⟨_, _, hsame⟩ := Except.map_eq_ok_iff.mp h
              cases hsame
          | array _ | unrecognized _ => cases h

/-- Every nested object is that of a declared object. -/
theorem exists_target_of_mem_composeParts
    (h : s.composeParts overrides nested properties = .ok parts) {entry : String × CompiledObject}
    (hentry : entry ∈ parts.objects) :
    ∃ target, s.DeclaresObject target ∧ nested target = .ok entry.2 := by
  induction properties generalizing parts with
  | nil =>
      cases h
      cases hentry
  | cons p rest ih =>
      obtain ⟨part, hpart, others, hothers, rfl⟩ := composeParts_cons_eq_ok_iff.mp h
      cases part with
      | object o =>
          rcases List.mem_cons.mp hentry with rfl | hentry
          · obtain ⟨target, _, hdeclared, hnested⟩ := exists_target_of_composeProperty hpart
            exact ⟨target, hdeclared, hnested⟩
          · exact ih hothers hentry
      | element | array => exact ih hothers hentry

/-- Every property of a definition has a part, and no part has another property. -/
theorem perm_properties_of_composeParts
    (h : s.composeParts overrides nested properties = .ok parts) :
    parts.properties.Perm (properties.map (·.name)) := by
  induction properties generalizing parts with
  | nil =>
      cases h
      exact List.Perm.refl _
  | cons p rest ih =>
      obtain ⟨part, _, others, hothers, rfl⟩ := composeParts_cons_eq_ok_iff.mp h
      exact (others.perm_properties_add p.name part).trans ((ih hothers).cons p.name)

/-- A composed object is put together from the parts of its definition. -/
theorem exists_parts_of_compose (hdeclared : s.schemas.get? name = some (.object definition))
    (h : s.compose name overrides = .ok o) :
    ∃ nested parts, s.composeParts overrides nested definition.properties = .ok parts ∧
      parts.assemble name definition = o := by
  obtain ⟨_, found, hfound, parts, hparts, hassemble⟩ := composeOn_eq_ok_iff.mp h
  have hentry := (objectWithParent_eq_ok_iff.mp hfound).1
  rw [hdeclared] at hentry
  cases hentry
  exact ⟨_, parts, hparts, hassemble⟩

theorem name_of_compose (h : s.compose name overrides = .ok o) : o.name = name := by
  obtain ⟨_, _, _, _, _, rfl⟩ := composeOn_eq_ok_iff.mp h
  rfl

/-- The properties of a composed object are those that are declared, each of them once. -/
theorem perm_properties_of_compose (hdeclared : s.schemas.get? name = some (.object definition))
    (h : s.compose name overrides = .ok o) :
    o.properties.Perm (definition.properties.map (·.name)) := by
  obtain ⟨_, _, hparts, rfl⟩ := exists_parts_of_compose hdeclared h
  exact perm_properties_of_composeParts hparts

theorem elementNames_of_compose (hdeclared : s.schemas.get? name = some (.object definition))
    (h : s.compose name overrides = .ok o) :
    o.elements.map (·.2.name) =
      definition.properties.filterMap (fun p => s.elementOf? p.target) := by
  obtain ⟨_, _, hparts, rfl⟩ := exists_parts_of_compose hdeclared h
  exact elementNames_of_composeParts hparts

theorem arrays_of_compose (hdeclared : s.schemas.get? name = some (.object definition))
    (h : s.compose name overrides = .ok o) :
    o.arrays = (s.arrayProperties definition).map (fun a => ⟨a.1, a.2⟩) := by
  obtain ⟨_, _, hparts, rfl⟩ := exists_parts_of_compose hdeclared h
  simp only [arrayProperties, List.map_filterMap, Option.map_map, Function.comp_def]
  exact arrays_of_composeParts hparts

theorem compileElement_of_mem_elements (h : s.compose name overrides = .ok o)
    {entry : String × CompiledElement} (hentry : entry ∈ o.elements) :
    s.compileElement entry.2.name (overrides.at entry.1) = .ok entry.2 := by
  obtain ⟨_, definition, _, parts, hparts, rfl⟩ := composeOn_eq_ok_iff.mp h
  exact compileElement_of_mem_composeParts hparts hentry

/-- A nested object is what its name composes to without overrides. -/
theorem compose_of_mem_objects (h : s.compose name overrides = .ok o)
    {entry : String × CompiledObject} (hentry : entry ∈ o.objects) :
    s.DeclaresObject entry.2.name ∧ s.compose entry.2.name .empty = .ok entry.2 := by
  obtain ⟨_, definition, _, parts, hparts, rfl⟩ := composeOn_eq_ok_iff.mp h
  obtain ⟨target, hdeclared, hnested⟩ := exists_target_of_mem_composeParts hparts hentry
  have hcompose : s.compose target .empty = .ok entry.2 := compose_of_composeOn hnested
  rw [name_of_compose hcompose]
  exact ⟨hdeclared, hcompose⟩

/-- Whatever a composed object contains is declared and composes on its own to what it is there. -/
theorem compose_of_contains {inner : CompiledObject} (hdeclared : s.DeclaresObject o.name)
    (hcompose : s.compose o.name .empty = .ok o) (hinner : o.Contains inner) :
    s.DeclaresObject inner.name ∧ s.compose inner.name .empty = .ok inner := by
  induction hinner with
  | refl o => exact ⟨hdeclared, hcompose⟩
  | nested inside _ ih =>
      obtain ⟨hnext, hnextCompose⟩ := compose_of_mem_objects hcompose inside
      exact ih hnext hnextCompose

end Store

end Taxonomy
