import Mathlib.Data.List.Permutation
import Taxonomy.Proofs.Composition.Memory
import Taxonomy.Proofs.Composition.Parts
import Taxonomy.Proofs.Schema.Load
import Taxonomy.Proofs.Text.ByteOrder

/-!
# The properties of a compiled object

Every property of an object stands for something, and this is listed once, under the property and
in the list of its kind. Taking the properties in order, a step adds to the front of one list and
leaves the others as they are; so each list goes through the properties in their order, and together
they go through all of them.
-/

namespace Taxonomy

namespace Parts

variable {parts : Parts} {property other : String} {part part' : CompiledSchema}

/-- The part is in the list of its kind under the property. -/
def Lists (parts : Parts) (property : String) : CompiledSchema → Prop
  | .element e => (property, e) ∈ parts.elements
  | .object o => (property, o) ∈ parts.objects
  | .array items => ⟨property, items⟩ ∈ parts.arrays

theorem lists_add (parts : Parts) (property : String) (part : CompiledSchema) :
    (parts.add property part).Lists property part := by
  cases part <;> exact List.mem_cons_self

/-- What is listed stays listed. -/
theorem Lists.add (h : parts.Lists property part) (other : String) (part' : CompiledSchema) :
    (parts.add other part').Lists property part := by
  cases part <;> cases part' <;> first | exact h | exact List.mem_cons_of_mem _ h

/-- Each list goes through some of the properties in their order. -/
structure Follows (parts : Parts) (properties : List String) : Prop where
  elements : (parts.elements.map (·.1)).Sublist properties
  objects : (parts.objects.map (·.1)).Sublist properties
  arrays : (parts.arrays.map (·.property)).Sublist properties

theorem Follows.add {properties : List String} (h : parts.Follows properties) (property : String)
    (part : CompiledSchema) : (parts.add property part).Follows (property :: properties) := by
  cases part with
  | element e =>
      exact ⟨h.elements.cons_cons property, h.objects.cons property, h.arrays.cons property⟩
  | object o =>
      exact ⟨h.elements.cons property, h.objects.cons_cons property, h.arrays.cons property⟩
  | array items =>
      exact ⟨h.elements.cons property, h.objects.cons property, h.arrays.cons_cons property⟩

end Parts

namespace Store

variable {s : Store} {name : String} {overrides : ObjectOverrides} {parts : Parts}
variable {nested : String → Except TaxonomyError CompiledObject} {part : CompiledSchema}
variable {p : PropertyDefinition} {properties : List PropertyDefinition}
variable {definition : ObjectDefinition} {o : CompiledObject} {target : PropertyTarget}

theorem follows_of_composeParts (h : s.composeParts overrides nested properties = .ok parts) :
    parts.Follows (properties.map (·.name)) := by
  induction properties generalizing parts with
  | nil =>
      cases h
      exact ⟨.slnil, .slnil, .slnil⟩
  | cons p rest ih =>
      obtain ⟨part, _, others, hothers, rfl⟩ := composeParts_cons_eq_ok_iff.mp h
      exact (ih hothers).add p.name part

/-- What a property stands for is listed under the property. -/
theorem exists_lists_of_composeParts
    (h : s.composeParts overrides nested properties = .ok parts) (hp : p ∈ properties) :
    ∃ part, s.composeProperty overrides nested p = .ok part ∧ parts.Lists p.name part := by
  induction properties generalizing parts with
  | nil => cases hp
  | cons first rest ih =>
      obtain ⟨part, hpart, others, hothers, rfl⟩ := composeParts_cons_eq_ok_iff.mp h
      rcases List.mem_cons.mp hp with rfl | hrest
      · exact ⟨part, hpart, others.lists_add p.name part⟩
      · obtain ⟨part', hpart', hlisted⟩ := ih hothers hrest
        exact ⟨part', hpart', hlisted.add first.name part⟩

theorem elementOf?_eq_some_iff :
    s.elementOf? target = some name ↔
      target = .schema name ∧ ∃ definition, s.schemas.get? name = some (.element definition) := by
  cases target with
  | array items => simp [elementOf?]
  | schema other =>
      cases hentry : s.schemas.get? other with
      | none => grind [elementOf?]
      | some entry => cases entry <;> grind [elementOf?]

theorem arrayItemsOf?_eq_some_iff {items : String} :
    s.arrayItemsOf? target = some items ↔
      target = .array items ∨
        ∃ name, target = .schema name ∧ s.schemas.get? name = some (.array items) := by
  cases target with
  | array items' => simp [arrayItemsOf?]
  | schema other =>
      cases hentry : s.schemas.get? other with
      | none => simp [arrayItemsOf?, hentry]
      | some entry => cases entry <;> simp [arrayItemsOf?, hentry]

/-- The property stands in the list of its kind, with what its target compiles to. -/
inductive Places (s : Store) (overrides : ObjectOverrides) (o : CompiledObject)
    (p : PropertyDefinition) : Prop
  /-- An array written in place. -/
  | inline {items : String} (target : p.target = .array items)
      (listed : ⟨p.name, items⟩ ∈ o.arrays)
  | array {schema items : String} (target : p.target = .schema schema)
      (entry : s.schemas.get? schema = some (.array items)) (listed : ⟨p.name, items⟩ ∈ o.arrays)
  | element {schema : String} {e : CompiledElement} (target : p.target = .schema schema)
      (kind : s.classify schema = .ok .element)
      (compiled : s.compileElement schema (overrides.at p.name) = .ok e)
      (listed : (p.name, e) ∈ o.elements)
  | object {schema : String} {inner : CompiledObject} (target : p.target = .schema schema)
      (kind : s.classify schema = .ok .object)
      (compiled : (s.compile schema .empty {}).1 = .ok inner) (listed : (p.name, inner) ∈ o.objects)

/-- The lists of an object share out the properties of its definition. Each property is in one of
them, once, and there are no others; each list is in order and holds what the targets compile
to. -/
structure Partitions (s : Store) (overrides : ObjectOverrides) (definition : ObjectDefinition)
    (o : CompiledObject) : Prop where
  perm : o.properties.Perm (definition.properties.map (·.name))
  nodup : o.properties.Nodup
  elements_ordered : (o.elements.map (·.1)).Pairwise (fun a b => Text.bytes a < Text.bytes b)
  objects_ordered : (o.objects.map (·.1)).Pairwise (fun a b => Text.bytes a < Text.bytes b)
  arrays_ordered : (o.arrays.map (·.property)).Pairwise (fun a b => Text.bytes a < Text.bytes b)
  places : ∀ p ∈ definition.properties, s.Places overrides o p

/-- A part that is composed on a path is compiled the same by itself. -/
theorem places_of_composeProperty {path : List String}
    (h : s.composeProperty overrides (fun target => s.composeOn path target .empty) p = .ok part)
    (hlisted : parts.Lists p.name part) :
    s.Places overrides (parts.assemble name definition) p := by
  rcases composeProperty_cases h with
    ⟨e, rfl, hname, _, he⟩ | ⟨inner, rfl, _⟩ | ⟨items, rfl, _, hitems⟩
  · obtain ⟨htarget, _⟩ := elementOf?_eq_some_iff.mp hname
    exact .element htarget (classify_of_compileElement he) he hlisted
  · obtain ⟨target, htarget, hdeclared, hinner⟩ := exists_target_of_composeProperty h
    have hcompile : (s.compile target .empty {}).1 = .ok inner := by
      rw [(s.compile_agrees target .empty {} s.sound_empty).1]
      exact compose_of_composeOn hinner
    exact .object htarget (classify_eq_object_iff.mpr hdeclared) hcompile hlisted
  · rcases arrayItemsOf?_eq_some_iff.mp hitems with htarget | ⟨schema, htarget, hentry⟩
    · exact .inline htarget hlisted
    · exact .array htarget hentry hlisted

theorem partitions_of_compose (hordered : definition.Ordered)
    (hdeclared : s.schemas.get? name = some (.object definition))
    (h : s.compose name overrides = .ok o) : s.Partitions overrides definition o := by
  have hperm := perm_properties_of_compose hdeclared h
  obtain ⟨_, found, hfound, parts, hparts, rfl⟩ := composeOn_eq_ok_iff.mp h
  have hentry := (objectWithParent_eq_ok_iff.mp hfound).1
  rw [hdeclared] at hentry
  cases hentry
  have hfollows := follows_of_composeParts hparts
  have hascending : (definition.properties.map (·.name)).Pairwise
      (fun a b => Text.bytes a < Text.bytes b) :=
    List.pairwise_map.mpr (hordered.imp Text.before_iff_bytes_lt.mp)
  exact {
    perm := hperm
    nodup := hperm.nodup_iff.mpr hordered.nodup_names
    elements_ordered := hascending.sublist hfollows.elements
    objects_ordered := hascending.sublist hfollows.objects
    arrays_ordered := hascending.sublist hfollows.arrays
    places := fun p hp => by
      obtain ⟨part, hpart, hlisted⟩ := exists_lists_of_composeParts hparts hp
      exact places_of_composeProperty hpart hlisted }

/-- The lists of a compiled object share out the properties of its definition, and so do the lists
of every object that is nested in it, which is compiled without overrides. -/
theorem partitions_of_compile (hs : s.Loaded) (h : (s.compile name overrides {}).1 = .ok o) :
    (∃ definition, s.schemas.get? name = some (.object definition) ∧
      s.Partitions overrides definition o) ∧
    ∀ property inner, (property, inner) ∈ o.objects → ∀ part, inner.Contains part →
      ∃ definition, s.schemas.get? part.name = some (.object definition) ∧
        s.Partitions .empty definition part := by
  rw [(s.compile_agrees name overrides {} s.sound_empty).1] at h
  constructor
  · obtain ⟨_, definition, hdefinition, _⟩ := composeOn_eq_ok_iff.mp h
    have hdeclared := (objectWithParent_eq_ok_iff.mp hdefinition).1
    exact ⟨definition, hdeclared, partitions_of_compose (hs.ordered hdeclared) hdeclared h⟩
  · intro property inner hinner part hpart
    obtain ⟨hinnerDeclared, hinnerCompose⟩ := compose_of_mem_objects h hinner
    obtain ⟨⟨definition, hdeclared⟩, hcompose⟩ :=
      compose_of_contains hinnerDeclared hinnerCompose hpart
    exact ⟨definition, hdeclared, partitions_of_compose (hs.ordered hdeclared) hdeclared hcompose⟩

/-- An oven has a code, a rack, spare racks, and a stack of racks that is an array with a name. -/
def ovens : Store where
  source := none
  schemas := .ofList [
    ("Code", .element ⟨"TaxonomyElementString", "", "String", none⟩),
    ("Oven", .object ⟨none, "", [⟨"Code", .schema "Code"⟩, ⟨"Rack", .schema "Rack"⟩,
      ⟨"Spares", .array "Rack"⟩, ⟨"Stack", .schema "Stack"⟩]⟩),
    ("Rack", .object ⟨none, "", []⟩),
    ("Stack", .array "Rack")]
  itemTypes := .ofList [("String", .obj [])]
  itemTypeGroups := .empty

def ovensDocument : Json :=
  .obj [
    ("schemas", .obj [
      ("Code", .obj [("allOf", .arr [.obj [("$ref", .str "TaxonomyElementString")],
        .obj [("item-type", .str "String")]])]),
      ("Oven", .obj [("properties", .obj [("Code", .null), ("Rack", .null),
        ("Spares", .obj [("type", .str "array"), ("items", .obj [("$ref", .str "Rack")])]),
        ("Stack", .null)])]),
      ("Rack", .obj [("properties", .obj [])]),
      ("Stack", .obj [("type", .str "array"), ("items", .obj [("$ref", .str "Rack")])])]),
    ("item-types", .obj [("String", .obj [])])]

theorem ofValue_ovensDocument : ofValue ovensDocument = .ok ovens := by
  cbv

/-- The oven has an element, an object and two arrays, each list in the order of its properties. -/
theorem partitions_of_compile_oven :
    ∃ o definition, (ovens.compile "Oven" .empty {}).1 = .ok o ∧
      ovens.schemas.get? "Oven" = some (.object definition) ∧
      ovens.Partitions .empty definition o ∧
      o.arrays = [⟨"Spares", "Rack"⟩, ⟨"Stack", "Rack"⟩] := by
  have harrays : CompiledObject.arrays <$> (ovens.compile "Oven" .empty {}).1 =
      .ok [⟨"Spares", "Rack"⟩, ⟨"Stack", "Rack"⟩] := by
    cbv
  obtain ⟨o, hcompile, harrays⟩ := Except.map_eq_ok_iff.mp harrays
  have hloaded : ovens.Loaded := .value ofValue_ovensDocument
  obtain ⟨⟨definition, hdeclared, hpartitions⟩, _⟩ := partitions_of_compile hloaded hcompile
  exact ⟨o, definition, hcompile, hdeclared, hpartitions, harrays⟩

end Store

end Taxonomy
