import Taxonomy.Composition.Basic

/-!
# Composing objects

What an object composes to, computed afresh: its properties are taken in name order, each
by the kind of its target, and nested objects are composed without overrides. A name that is met again
on the path that leads to it closes a cycle. The recursion ends because every name on the path is a
declared one and no name is on it twice.
-/

namespace Taxonomy.Store

/-- The part of a path that a name closes to a cycle. -/
def cycleOf (path : List String) (name : String) : List String :=
  path.dropWhile (· != name) ++ [name]

/-- The definition of an object whose parent, if it has one, is an object too. -/
def objectWithParent (s : Store) (name : String) : Except TaxonomyError ObjectDefinition := do
  let definition ← s.object name
  if let some parent := definition.parent then
    let _ ← s.object parent
  return definition

/-- The parts of a list of properties. -/
def composeParts (s : Store) (overrides : ObjectOverrides)
    (nested : String → Except TaxonomyError CompiledObject) :
    List PropertyDefinition → Except TaxonomyError Parts
  | [] => .ok {}
  | ⟨property, .array items⟩ :: rest => do
    return (← composeParts s overrides nested rest).addArray property items
  | ⟨property, .schema target⟩ :: rest => do
    match ← s.classify target with
    | .element =>
      let e ← s.compileElement target (overrides.at property)
      return (← composeParts s overrides nested rest).addElement property e
    | .object =>
      let o ← nested target
      return (← composeParts s overrides nested rest).addObject property o
    | .array =>
      let parts ← composeParts s overrides nested rest
      match s.arrayItemsOf? (.schema target) with
      | some items => return parts.addArray property items
      | none => return parts

theorem object_of_objectWithParent {s : Store} {name : String} {definition : ObjectDefinition}
    (h : s.objectWithParent name = .ok definition) : s.object name = .ok definition := by
  unfold objectWithParent at h
  cases hobject : s.object name with
  | error e => simp [hobject, bind, Except.bind] at h
  | ok d =>
    simp only [hobject, bind, Except.bind] at h
    cases hparent : d.parent with
    | none =>
      simp only [hparent] at h
      cases h
      rfl
    | some p =>
      simp only [hparent] at h
      cases hp : s.object p with
      | error e => simp [hp] at h
      | ok q =>
        simp only [hp] at h
        cases h
        rfl

/-- Compose the object of a name that a path of objects leads to. -/
def composeOn (s : Store) (path : List String) (name : String) (overrides : ObjectOverrides) :
    Except TaxonomyError CompiledObject :=
  if _hpath : name ∈ path then .error (.cyclicSchema (cycleOf path name))
  else
    match _hdefinition : s.objectWithParent name with
    | .error e => .error e
    | .ok definition => do
      let parts ← s.composeParts overrides
        (fun target => s.composeOn (path ++ [name]) target .empty) definition.properties
      return parts.assemble name definition
termination_by s.unvisited path
decreasing_by exact unvisited_append_lt _hpath (object_of_objectWithParent _hdefinition)

/-- Compose the object of a name. -/
def compose (s : Store) (name : String) (overrides : ObjectOverrides) :
    Except TaxonomyError CompiledObject :=
  s.composeOn [] name overrides

end Taxonomy.Store
