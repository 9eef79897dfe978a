import Taxonomy.Composition.Compose
import Taxonomy.Proofs.Composition.Graph
import Taxonomy.Proofs.Outcome

/-!
# Composing, one step at a time

Composition goes along a path: at each object it reads the definition, takes the properties
in order and goes on to the objects they name. Each of these steps is described by one equation, and
facts about all compositions follow by induction on the path, which grows by a declared name every
time.
-/

namespace Taxonomy

/-- A schema in compiled form; also what a property of an object stands for. -/
inductive CompiledSchema
  | element (e : CompiledElement)
  | object (o : CompiledObject)
  | array (items : String)

/-- List what a property stands for under the property. -/
def Parts.add (parts : Parts) (property : String) : CompiledSchema → Parts
  | .element e => parts.addElement property e
  | .object o => parts.addObject property o
  | .array items => parts.addArray property items

namespace Store

variable {s : Store} {path : List String} {name : String} {overrides : ObjectOverrides}
variable {nested nested' : String → Except TaxonomyError CompiledObject}
variable {properties : List PropertyDefinition}

/-- The definition is read if the name and its parent, if it has one, are declared objects. -/
theorem objectWithParent_eq_ok_iff {definition : ObjectDefinition} :
    s.objectWithParent name = .ok definition ↔
      s.schemas.get? name = some (.object definition) ∧
        ∀ parent ∈ definition.parent, s.DeclaresObject parent := by
  rw [objectWithParent, Except.bind_eq_ok_iff, ← object_eq_ok_iff]
  constructor
  · rintro ⟨found, hfound, h⟩
    cases hparent : found.parent with
    | none =>
        simp only [hparent, Except.pure_eq_ok, Except.ok.injEq] at h
        subst h
        simp [hfound, hparent]
    | some parent =>
        simp only [hparent, Except.pure_eq_ok, Except.bind_eq_ok_iff] at h
        obtain ⟨parentDefinition, hdeclared, h⟩ := h
        cases h
        refine ⟨hfound, ?_⟩
        intro other hother
        rw [hparent] at hother
        cases hother
        exact ⟨parentDefinition, object_eq_ok_iff.mp hdeclared⟩
  · rintro ⟨hfound, hparents⟩
    refine ⟨definition, hfound, ?_⟩
    cases hparent : definition.parent with
    | none => rfl
    | some parent =>
        obtain ⟨parentDefinition, hdeclared⟩ := hparents parent hparent
        simp [object_eq_ok_iff.mpr hdeclared]

/-- What a property stands for, by the entry that it names. -/
def composeProperty (s : Store) (overrides : ObjectOverrides)
    (nested : String → Except TaxonomyError CompiledObject) (p : PropertyDefinition) :
    Except TaxonomyError CompiledSchema :=
  match p.target with
  | .array items => .ok (.array items)
  | .schema target => do
    match ← s.lookup target with
    | .element _ => CompiledSchema.element <$> s.compileElement target (overrides.at p.name)
    | .object _ => CompiledSchema.object <$> nested target
    | .array items => .ok (.array items)
    | .unrecognized fault => .error (.malformedSchema target fault)

/-- An element whose superclass is no category does not compile, for that very reason. -/
theorem compileElement_of_category_error {e : ElementDefinition} {fault : TaxonomyError}
    (hentry : s.schemas.get? name = some (.element e))
    (hcategory : categoryOf name e = .error fault) (o : ValueOverrides) :
    s.compileElement name o = .error fault := by
  simp [compileElement, superclassOf, element, lookup_of_some hentry, hcategory]

/-- The properties are taken in order, the first fault ends the composition. -/
theorem composeParts_cons (p : PropertyDefinition) (rest : List PropertyDefinition) :
    s.composeParts overrides nested (p :: rest) = (do
      let part ← s.composeProperty overrides nested p
      let parts ← s.composeParts overrides nested rest
      return parts.add p.name part) := by
  obtain ⟨property, target⟩ := p
  cases target with
  | array items => rfl
  | schema target =>
      cases hentry : s.schemas.get? target with
      | none => simp [composeParts, composeProperty, classify, lookup_of_none hentry]
      | some entry =>
          cases entry with
          | element e =>
              cases hcategory : categoryOf target e with
              | error fault =>
                  simp [composeParts, composeProperty, classify_of_element hentry, hcategory,
                    lookup_of_some hentry, compileElement_of_category_error hentry hcategory]
              | ok category =>
                  simp only [composeParts, composeProperty, classify_of_element hentry, hcategory,
                    lookup_of_some hentry, Except.ok_bind, map_eq_pure_bind, bind_assoc]
                  rfl
          | object definition =>
              simp only [composeParts, composeProperty, classify_of_object hentry,
                lookup_of_some hentry, Except.ok_bind, map_eq_pure_bind, bind_assoc]
              rfl
          | array items =>
              simp only [composeParts, composeProperty, classify_of_array hentry,
                lookup_of_some hentry, Except.ok_bind, arrayItemsOf?, hentry]
              rfl
          | unrecognized fault =>
              simp [composeParts, composeProperty, classify, lookup_of_some hentry]

/-- Properties compose together exactly if each of them does. -/
theorem exists_composeParts_iff :
    (∃ parts, s.composeParts overrides nested properties = .ok parts) ↔
      ∀ p ∈ properties, ∃ part, s.composeProperty overrides nested p = .ok part := by
  induction properties with
  | nil => simp [composeParts]
  | cons p rest ih =>
      simp only [composeParts_cons, Except.bind_eq_ok_iff, Except.pure_eq_ok, Except.ok.injEq,
        List.forall_mem_cons, ← ih]
      constructor
      · rintro ⟨_, part, hpart, parts, hparts, _⟩
        exact ⟨⟨part, hpart⟩, ⟨parts, hparts⟩⟩
      · rintro ⟨⟨part, hpart⟩, ⟨parts, hparts⟩⟩
        exact ⟨_, part, hpart, parts, hparts, rfl⟩

/-- The fault of a list of properties is the fault of one of them. -/
theorem exists_of_composeParts_error {fault : TaxonomyError}
    (h : s.composeParts overrides nested properties = .error fault) :
    ∃ p ∈ properties, s.composeProperty overrides nested p = .error fault := by
  induction properties with
  | nil => simp [composeParts] at h
  | cons p rest ih =>
      rw [composeParts_cons, Except.bind_eq_error_iff] at h
      rcases h with hpart | ⟨part, _, h⟩
      · exact ⟨p, List.mem_cons_self, hpart⟩
      · rw [Except.bind_eq_error_iff] at h
        rcases h with hrest | ⟨parts, _, h⟩
        · obtain ⟨q, hq, hfault⟩ := ih hrest
          exact ⟨q, List.mem_cons_of_mem _ hq, hfault⟩
        · cases h

/-- Properties that stand for the same come to the same parts, also in another store and with other
overrides. -/
theorem composeParts_congr {s' : Store} {overrides' : ObjectOverrides}
    (h : ∀ p ∈ properties,
      s.composeProperty overrides nested p = s'.composeProperty overrides' nested' p) :
    s.composeParts overrides nested properties =
      s'.composeParts overrides' nested' properties := by
  induction properties with
  | nil => rfl
  | cons p rest ih =>
      obtain ⟨hp, hrest⟩ := List.forall_mem_cons.mp h
      rw [composeParts_cons, composeParts_cons, hp, ih hrest]

/-- A property that names an object stands for what that object composes to. -/
theorem composeProperty_of_object {p : PropertyDefinition} {target : String}
    (htarget : p.target = .schema target) (hdeclared : s.DeclaresObject target) :
    s.composeProperty overrides nested p = CompiledSchema.object <$> nested target := by
  obtain ⟨definition, hentry⟩ := hdeclared
  simp [composeProperty, htarget, lookup_of_some hentry]

/-- What a property stands for depends on nested objects only if it names one. -/
theorem composeProperty_congr {p : PropertyDefinition}
    (h : ∀ target, p.target = .schema target → s.DeclaresObject target →
      nested target = nested' target) :
    s.composeProperty overrides nested p = s.composeProperty overrides nested' p := by
  cases htarget : p.target with
  | array items => simp only [composeProperty, htarget]
  | schema target =>
      cases hentry : s.schemas.get? target with
      | none => simp only [composeProperty, htarget, lookup_of_none hentry, Except.error_bind]
      | some entry =>
          cases entry with
          | object definition =>
              have hdeclared : s.DeclaresObject target := ⟨definition, hentry⟩
              rw [composeProperty_of_object htarget hdeclared,
                composeProperty_of_object htarget hdeclared, h target htarget hdeclared]
          | element | array | unrecognized =>
              simp only [composeProperty, htarget, lookup_of_some hentry, Except.ok_bind]

/-- A name that is on the path already closes a cycle. -/
theorem composeOn_of_mem (h : name ∈ path) :
    s.composeOn path name overrides = .error (.cyclicSchema (cycleOf path name)) := by
  rw [composeOn, dif_pos h]

/-- A name that is not on the path is put at its end while its properties are composed. -/
theorem composeOn_of_not_mem (h : name ∉ path) :
    s.composeOn path name overrides = (do
      let definition ← s.objectWithParent name
      let parts ← s.composeParts overrides
        (fun target => s.composeOn (path ++ [name]) target .empty) definition.properties
      return parts.assemble name definition) := by
  rw [composeOn, dif_neg h]
  split
  · rename_i fault hdefinition
    rw [hdefinition, Except.error_bind]
  · rename_i definition hdefinition
    rw [hdefinition, Except.ok_bind]

/-- What holds of a path and a name as soon as it holds of all longer paths that composition comes
to, holds of every path and name. -/
theorem composition_induction (s : Store) {motive : List String → String → Prop}
    (step : ∀ path name,
      (∀ definition, name ∉ path → s.objectWithParent name = .ok definition →
        ∀ target, motive (path ++ [name]) target) → motive path name)
    (path : List String) (name : String) : motive path name := by
  refine composeOn.induct s (fun path name _ => motive path name) ?_ ?_ ?_ path name .empty
  · intro path name _ hmem
    exact step path name (fun _ hnot => absurd hmem hnot)
  · intro path name _ _ fault hfault
    refine step path name (fun definition _ hdefinition => ?_)
    rw [hfault] at hdefinition
    cases hdefinition
  · intro path name _ _ _ _ ih
    exact step path name (fun _ _ _ => ih)

theorem composeOn_eq_ok_iff {o : CompiledObject} :
    s.composeOn path name overrides = .ok o ↔
      name ∉ path ∧ ∃ definition, s.objectWithParent name = .ok definition ∧
        ∃ parts, s.composeParts overrides
          (fun target => s.composeOn (path ++ [name]) target .empty) definition.properties =
            .ok parts ∧ parts.assemble name definition = o := by
  by_cases hpath : name ∈ path
  · simp [composeOn_of_mem hpath, hpath]
  · simp only [composeOn_of_not_mem hpath, Except.bind_eq_ok_iff, Except.pure_eq_ok,
      Except.ok.injEq, hpath, not_false_eq_true, true_and]

end Store

end Taxonomy
