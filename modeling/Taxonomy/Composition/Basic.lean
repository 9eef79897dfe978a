import Taxonomy.Element.Compile

/-!
# Composed objects

An object composes elements and other objects through its properties, and owns the items
of its array properties. Each part is listed under its property, in property order. A composed object
holds the objects nested in it, but not the items of its arrays nor the properties of its parent.
-/

namespace Taxonomy

/-- A property that owns many items. -/
structure ArrayUsage where
  property : String
  items : String
deriving DecidableEq

namespace ArrayUsage

def encode (a : ArrayUsage) : Json :=
  .obj [("property", .str a.property), ("items", .str a.items)]

def decode? (value : Json) : Option ArrayUsage := do
  let r ← Json.Record.ofJson? ["property", "items"] value
  some ⟨← r.required? "property" Json.asString?, ← r.required? "items" Json.asString?⟩

end ArrayUsage

/-- An object with everything that its properties stand for. -/
inductive CompiledObject where
  | mk (name : String) (parent : Option String) (description : String)
      (elements : List (String × CompiledElement)) (objects : List (String × CompiledObject))
      (arrays : List ArrayUsage)

namespace CompiledObject

def name : CompiledObject → String
  | mk name _ _ _ _ _ => name

/-- The object that this one extends. -/
def parent : CompiledObject → Option String
  | mk _ parent _ _ _ _ => parent

def description : CompiledObject → String
  | mk _ _ description _ _ _ => description

/-- The elements under their properties. -/
def elements : CompiledObject → List (String × CompiledElement)
  | mk _ _ _ elements _ _ => elements

/-- The nested objects under their properties. -/
def objects : CompiledObject → List (String × CompiledObject)
  | mk _ _ _ _ objects _ => objects

def arrays : CompiledObject → List ArrayUsage
  | mk _ _ _ _ _ arrays => arrays

def element? (o : CompiledObject) (property : String) : Option CompiledElement :=
  Entries.lookup property o.elements

def object? (o : CompiledObject) (property : String) : Option CompiledObject :=
  Entries.lookup property o.objects

def array? (o : CompiledObject) (property : String) : Option ArrayUsage :=
  o.arrays.find? (fun a => a.property == property)

/-- The storage columns of the object's own elements. Nested objects have columns of their own. -/
def columns (o : CompiledObject) : List FieldDescriptor :=
  o.elements.flatMap (fun e => e.2.facets)

mutual

def encode : CompiledObject → Json
  | mk name parent description elements objects arrays =>
    .obj ([("name", .str name)] ++ Json.memberIfSome "parent" Json.str parent ++
      [("description", .str description),
        ("elements", .arr (elements.map (fun e =>
          .obj [("property", .str e.1), ("element", e.2.encode)]))),
        ("objects", .arr (encodeNested objects)),
        ("arrays", .arr (arrays.map ArrayUsage.encode))])

def encodeNested : List (String × CompiledObject) → List Json
  | [] => []
  | (property, o) :: rest =>
    .obj [("property", .str property), ("object", encode o)] :: encodeNested rest

end

end CompiledObject

/-- The overrides of an object's own elements, by property. -/
abbrev ObjectOverrides : Type := NameMap ValueOverrides

/-- The overrides of one property. -/
def ObjectOverrides.at (o : ObjectOverrides) (property : String) : ValueOverrides :=
  (o.get? property).getD .unchanged

namespace ObjectOverrides

def encode (o : ObjectOverrides) : Json :=
  .obj (o.entries.map (fun e => (e.1, e.2.encode)))

/-- Read overrides from an object of them. -/
def decode? : Json → Option ObjectOverrides
  | .obj members => do
    let entries ← members.mapM (fun m => (ValueOverrides.decode? m.2).map (fun o => (m.1, o)))
    some (NameMap.ofList entries)
  | _ => none

end ObjectOverrides

/-- The parts that the properties of an object stand for, each list in property order. -/
structure Parts where
  elements : List (String × CompiledElement) := []
  objects : List (String × CompiledObject) := []
  arrays : List ArrayUsage := []

namespace Parts

def addElement (p : Parts) (property : String) (e : CompiledElement) : Parts :=
  { p with elements := (property, e) :: p.elements }

def addObject (p : Parts) (property : String) (o : CompiledObject) : Parts :=
  { p with objects := (property, o) :: p.objects }

def addArray (p : Parts) (property items : String) : Parts :=
  { p with arrays := ⟨property, items⟩ :: p.arrays }

/-- The composed object of a definition with these parts. -/
def assemble (p : Parts) (name : String) (definition : ObjectDefinition) : CompiledObject :=
  .mk name definition.parent definition.description p.elements p.objects p.arrays

end Parts

namespace Store

/-- The names of the declared schemas that are not on a path. Composition gets past one of them at
every level. -/
def unvisited (s : Store) (path : List String) : Nat :=
  (s.schemas.names.filter (fun name => !path.contains name)).length

theorem length_filter_lt {p q : α → Bool} {xs : List α} (hpq : ∀ x, q x = true → p x = true)
    {a : α} (ha : a ∈ xs) (hp : p a = true) (hq : q a = false) :
    (xs.filter q).length < (xs.filter p).length := by
  have hle : ∀ ys : List α, (ys.filter q).length ≤ (ys.filter p).length := by
    intro ys
    induction ys with
    | nil => simp
    | cons y ys ih =>
      cases hqy : q y with
      | true => simp [hqy, hpq y hqy, ih]
      | false => cases hpy : p y <;> simp [hqy, hpy] <;> omega
  induction xs with
  | nil => simp at ha
  | cons x xs ih =>
    rcases List.mem_cons.mp ha with rfl | ha
    · have := hle xs
      simp [hp, hq]
      omega
    · have hlt := ih ha
      cases hqx : q x with
      | true => simp [hqx, hpq x hqx]; omega
      | false => cases hpx : p x <;> simp [hqx, hpx] <;> omega

theorem mem_names_of_get? {m : NameMap α} {name : String} {value : α}
    (h : m.get? name = some value) : name ∈ m.names :=
  List.mem_map.mpr ⟨(name, value), Entries.mem_of_lookup h, rfl⟩

theorem mem_names_of_object {s : Store} {name : String} {definition : ObjectDefinition}
    (h : s.object name = .ok definition) : name ∈ s.schemas.names := by
  simp only [object, lookup] at h
  cases hget : s.schemas.get? name with
  | none => simp [hget, bind, Except.bind] at h
  | some d => exact mem_names_of_get? hget

/-- A declared object that is not on the path leaves fewer names to visit. -/
theorem unvisited_append_lt {s : Store} {path : List String} {name : String}
    {definition : ObjectDefinition} (hpath : name ∉ path)
    (hobject : s.object name = .ok definition) :
    s.unvisited (path ++ [name]) < s.unvisited path := by
  refine length_filter_lt (a := name) ?_ (mem_names_of_object hobject) ?_ ?_
  · intro x hx
    simp only [List.contains_eq_mem, List.mem_append, Bool.not_eq_true', decide_eq_false_iff_not,
      not_or] at hx ⊢
    exact hx.1
  · simpa using hpath
  · simp

end Store

end Taxonomy
