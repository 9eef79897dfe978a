import Mathlib.Data.List.Permutation
import Taxonomy.Proofs.Composition.Parts
import Taxonomy.Proofs.Composition.Session

/-!
# Overrides of an object

Overrides are asked for by property, and they come into play when the element of a property is
compiled. Nested objects are composed without any. So composing an object with overrides is
composing it without and then applying them to the values of its own elements; they decide neither
whether it composes nor anything else of it, and a compiler keeps nothing of them for other requests.
-/

namespace Taxonomy

/-- The element `e` is the element `plain` in a use with overrides: the value takes over what is
overridden of its length, whether it may be edited and whether it is unique, and all else is as it
was. -/
def CompiledElement.IsUseOf (e plain : CompiledElement) (o : ValueOverrides) : Prop :=
  e = { plain with facets := plain.facets.map fun f =>
    if f.facet = .value then
      { f with constraints := { f.constraints with
          maxLength := o.maxLength.or f.constraints.maxLength
          editable := o.editable.getD f.constraints.editable
          unique := o.unique.getD f.constraints.unique } }
    else f }

theorem CompiledElement.isUseOf_override (e : CompiledElement) (o : ValueOverrides) :
    (e.override o).IsUseOf e o := rfl

/-- An element in its use with overrides; what is nested and what is only named has none. -/
def CompiledSchema.override (part : CompiledSchema) (o : ValueOverrides) : CompiledSchema :=
  match part with
  | .element e => .element (e.override o)
  | .object nested => .object nested
  | .array items => .array items

namespace Parts

def override (parts : Parts) (o : ObjectOverrides) : Parts :=
  { parts with elements := parts.elements.map fun e => (e.1, e.2.override (o.at e.1)) }

theorem override_add (parts : Parts) (property : String) (part : CompiledSchema)
    (o : ObjectOverrides) :
    (parts.add property part).override o =
      (parts.override o).add property (part.override (o.at property)) := by
  cases part <;> rfl

end Parts

namespace CompiledObject

/-- The object with overrides applied to the values of its own elements. -/
def override (c : CompiledObject) (o : ObjectOverrides) : CompiledObject :=
  .mk c.name c.parent c.description
    (c.elements.map fun e => (e.1, e.2.override (o.at e.1))) c.objects c.arrays

/-- The object has the elements of `plain` under the same properties, each in its use with the
overrides of the property. -/
def UsesElementsOf (c plain : CompiledObject) (o : ObjectOverrides) : Prop :=
  List.Forall₂ (fun e e' => e.1 = e'.1 ∧ e.2.IsUseOf e'.2 (o.at e'.1)) c.elements plain.elements

/-- Two compiled objects differ at most in the facets of their own elements. -/
structure SameShape (c c' : CompiledObject) : Prop where
  name : c.name = c'.name
  parent : c.parent = c'.parent
  description : c.description = c'.description
  objects : c.objects = c'.objects
  arrays : c.arrays = c'.arrays
  elementNames : c.elements.map (fun e => (e.1, e.2.name)) =
    c'.elements.map (fun e => (e.1, e.2.name))

theorem sameShape_override (c : CompiledObject) (o o' : ObjectOverrides) :
    (c.override o).SameShape (c.override o') where
  name := rfl
  parent := rfl
  description := rfl
  objects := rfl
  arrays := rfl
  elementNames := by
    simp only [override, elements, List.map_map]
    rfl

theorem usesElementsOf_override (c : CompiledObject) (o : ObjectOverrides) :
    (c.override o).UsesElementsOf c o := by
  rw [UsesElementsOf, override, elements, List.forall₂_map_left_iff, List.forall₂_same]
  intro e _
  exact ⟨rfl, e.2.isUseOf_override _⟩

end CompiledObject

namespace Store

variable {s : Store} {name : String} {o o' : ObjectOverrides}
variable {nested : String → Except TaxonomyError CompiledObject}

/-- What a property stands for with overrides is what it stands for without, in its use with the
overrides of the property. -/
theorem composeProperty_eq_override (p : PropertyDefinition) :
    s.composeProperty o nested p =
      (fun part => part.override (o.at p.name)) <$> s.composeProperty .empty nested p := by
  obtain ⟨property, target⟩ := p
  cases target with
  | array items => rfl
  | schema target =>
      cases hentry : s.schemas.get? target with
      | none => simp [composeProperty, lookup_of_none hentry]
      | some entry =>
          cases entry with
          | element e =>
              have hplain : ObjectOverrides.at .empty property = .unchanged := rfl
              simp only [composeProperty, lookup_of_some hentry, Except.ok_bind, hplain]
              rw [compileElement_eq_override, Functor.map_map, Functor.map_map]
              rfl
          | object definition =>
              simp only [composeProperty, lookup_of_some hentry, Except.ok_bind, Functor.map_map]
              rfl
          | array items =>
              simp only [composeProperty, lookup_of_some hentry, Except.ok_bind]
              rfl
          | unrecognized fault =>
              simp only [composeProperty, lookup_of_some hentry, Except.ok_bind]
              rfl

/-- Overrides are applied to the parts that the properties have without them. -/
theorem composeParts_eq_override (properties : List PropertyDefinition) :
    s.composeParts o nested properties =
      (fun parts => parts.override o) <$> s.composeParts .empty nested properties := by
  induction properties with
  | nil => rfl
  | cons p rest ih =>
      rw [composeParts_cons, composeParts_cons, composeProperty_eq_override, ih]
      simp only [map_eq_pure_bind, bind_assoc, pure_bind, Parts.override_add]

/-- Composing with overrides is composing without and then applying them. -/
theorem compose_eq_override (s : Store) (name : String) (o : ObjectOverrides) :
    s.compose name o = (fun c => c.override o) <$> s.compose name .empty := by
  have hpath : name ∉ ([] : List String) := List.not_mem_nil
  rw [compose, compose, composeOn_of_not_mem hpath, composeOn_of_not_mem hpath, map_bind]
  refine congrArg _ (funext fun definition => ?_)
  rw [composeParts_eq_override]
  simp only [map_eq_pure_bind, bind_assoc, pure_bind]
  rfl

/-- The overrides of a property count only if the property names an element. -/
theorem composeProperty_congr_overrides {p : PropertyDefinition}
    (h : s.elementOf? p.target ≠ none → o.at p.name = o'.at p.name) :
    s.composeProperty o nested p = s.composeProperty o' nested p := by
  rw [composeProperty_eq_override (o := o), composeProperty_eq_override (o := o')]
  cases hplain : s.composeProperty .empty nested p with
  | error fault => rfl
  | ok part =>
      rcases composeProperty_cases hplain with ⟨e, rfl, helement, _⟩ | ⟨_, rfl, _⟩ | ⟨_, rfl, _⟩
      · have hat : o.at p.name = o'.at p.name := h (by simp [helement])
        rw [hat]
      · rfl
      · rfl

/-- Overrides that agree on the element properties of an object give the same. -/
theorem compose_congr_overrides
    (h : ∀ definition, s.schemas.get? name = some (.object definition) →
      ∀ p ∈ definition.properties, s.elementOf? p.target ≠ none → o.at p.name = o'.at p.name) :
    s.compose name o = s.compose name o' := by
  have hpath : name ∉ ([] : List String) := List.not_mem_nil
  rw [compose, compose, composeOn_of_not_mem hpath, composeOn_of_not_mem hpath]
  cases hdefinition : s.objectWithParent name with
  | error fault => rw [Except.error_bind, Except.error_bind]
  | ok definition =>
      have hentry := (objectWithParent_eq_ok_iff.mp hdefinition).1
      rw [Except.ok_bind, Except.ok_bind, composeParts_congr]
      intro p hp
      exact composeProperty_congr_overrides (h definition hentry p hp)

/-- Overrides are local, whatever was asked of the compilers before. Two calls with different
overrides fail with the same fault; or they give objects of the same shape, in which each element is
that of the object without overrides in its use with the overrides of its property, and each nested
object is what it compiles to without overrides. Only the overrides of properties that name elements
count. A compiler that has served a call with overrides answers later requests as a new one does. -/
theorem overrides_local (s : Store) (name : String) (o o' : ObjectOverrides)
    (before before' : List Request) :
    ((∃ fault, (s.compile name o (s.serveAll before {}).2).1 = .error fault ∧
        (s.compile name o' (s.serveAll before' {}).2).1 = .error fault) ∨
      ∃ c c' plain, (s.compile name o (s.serveAll before {}).2).1 = .ok c ∧
        (s.compile name o' (s.serveAll before' {}).2).1 = .ok c' ∧
        (s.compile name .empty {}).1 = .ok plain ∧
        c.SameShape c' ∧ c.UsesElementsOf plain o ∧ c'.UsesElementsOf plain o' ∧
        ∀ part ∈ c.objects, (s.compile part.2.name .empty {}).1 = .ok part.2) ∧
    ((∀ definition, s.schemas.get? name = some (.object definition) →
        ∀ p ∈ definition.properties, s.elementOf? p.target ≠ none → o.at p.name = o'.at p.name) →
      (s.compile name o (s.serveAll before {}).2).1 =
        (s.compile name o' (s.serveAll before' {}).2).1) ∧
    ∀ later, (s.serveAll later (s.serveAll (before ++ [.object name o]) {}).2).1 =
      (s.serveAll later {}).1 := by
  have hnew : ∀ part, (s.compile part .empty {}).1 = s.compose part .empty :=
    fun part => s.compile_after [] part .empty
  simp only [compile_after, hnew]
  refine ⟨?_, compose_congr_overrides, ?_⟩
  · rw [compose_eq_override s name o, compose_eq_override s name o']
    cases hplain : s.compose name .empty with
    | error fault => exact .inl ⟨fault, rfl, rfl⟩
    | ok plain =>
        refine .inr ⟨plain.override o, plain.override o', plain, rfl, rfl, rfl,
          plain.sameShape_override o o', plain.usesElementsOf_override o,
          plain.usesElementsOf_override o', ?_⟩
        intro part hpart
        exact (compose_of_mem_objects hplain hpart).2
  · intro later
    rw [(serveAll_of_sound (s.sound_serveAll _) later).1,
      (serveAll_of_sound s.sound_empty later).1]

/-- A door has labels inside and outside and a frame with a label of its own. -/
def doors : Store where
  source := none
  schemas := .ofList [
    ("Door", .object ⟨none, "", [⟨"Frame", .schema "Frame"⟩, ⟨"Inner", .schema "Label"⟩,
      ⟨"Outer", .schema "Label"⟩]⟩),
    ("Frame", .object ⟨none, "", [⟨"Label", .schema "Label"⟩]⟩),
    ("Label", .element ⟨"TaxonomyElementString", "", "String", none⟩)]
  itemTypes := .ofList [("String", .obj [])]
  itemTypeGroups := .empty

/-- A short label inside. The frame is no element, so what is asked for it does not count. -/
def shortInside : ObjectOverrides :=
  .ofList [("Frame", { maxLength := some 9 }), ("Inner", { maxLength := some 5 })]

/-- The greatest lengths of the values of an object. -/
def valueLengths (c : CompiledObject) : List (String × Option Nat) :=
  c.elements.map fun e => (e.1, e.2.value?.bind (·.constraints.maxLength))

/-- Of the three uses of the label one is short, and the next request without overrides has long
ones again. -/
theorem overrides_local_doors :
    (∃ c plain,
      (doors.compile "Door" shortInside (doors.serveAll [.object "Door" .empty] {}).2).1 = .ok c ∧
      (doors.compile "Door" .empty {}).1 = .ok plain ∧ c.UsesElementsOf plain shortInside ∧
      c.SameShape plain ∧ valueLengths c = [("Inner", some 5), ("Outer", some 500)] ∧
      c.objects.map (fun part => (part.1, valueLengths part.2)) =
        [("Frame", [("Label", some 500)])] ∧
      valueLengths plain = [("Inner", some 500), ("Outer", some 500)]) ∧
    (doors.compile "Door" shortInside {}).1 =
      (doors.compile "Door" (.ofList [("Inner", { maxLength := some 5 })]) {}).1 ∧
    (doors.serveAll [.object "Door" .empty]
      (doors.serveAll [.object "Door" .empty, .object "Door" shortInside] {}).2).1 =
        (doors.serveAll [.object "Door" .empty] {}).1 := by
  have hlengths : (do
      let c ← (doors.compile "Door" shortInside (doors.serveAll [.object "Door" .empty] {}).2).1
      let plain ← (doors.compile "Door" .empty {}).1
      return (valueLengths c,
        c.objects.map (fun part : String × CompiledObject => (part.1, valueLengths part.2)),
        valueLengths plain)) =
          .ok ([("Inner", some 5), ("Outer", some 500)], [("Frame", [("Label", some 500)])],
            [("Inner", some 500), ("Outer", some 500)]) := by
    cbv
  obtain ⟨c, hc, hlengths⟩ := Except.bind_eq_ok_iff.mp hlengths
  obtain ⟨plain, hplain, hlengths⟩ := Except.bind_eq_ok_iff.mp hlengths
  simp only [Except.pure_eq_ok, Except.ok.injEq, Prod.mk.injEq] at hlengths
  obtain ⟨hshort, hframe, hlong⟩ := hlengths
  obtain ⟨houtcome, -, hlater⟩ :=
    overrides_local doors "Door" shortInside .empty [.object "Door" .empty] []
  rcases houtcome with ⟨fault, hfault, -⟩ | ⟨c', c₀, plain', hc', hc₀, hplain', hshape, huses, -⟩
  · rw [hc] at hfault
    cases hfault
  · obtain rfl := Except.ok.inj (hc.symm.trans hc')
    obtain rfl := Except.ok.inj (hplain.symm.trans hc₀)
    obtain rfl := Except.ok.inj (hplain.symm.trans hplain')
    refine ⟨⟨c, plain, hc, hplain, huses, hshape, hshort, hframe, hlong⟩, ?frame,
      hlater [.object "Door" .empty]⟩
    case frame =>
      refine (overrides_local doors "Door" shortInside
        (.ofList [("Inner", { maxLength := some 5 })]) [] []).2.1 ?_
      intro definition hdefinition
      obtain rfl := SchemaDefinition.object.inj (Option.some.inj hdefinition)
      simp only [List.forall_mem_cons]
      exact ⟨fun h => absurd rfl h, fun _ => rfl, fun _ => rfl, List.forall_mem_nil _⟩

end Store

end Taxonomy
