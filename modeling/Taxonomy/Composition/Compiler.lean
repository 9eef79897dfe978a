import Taxonomy.Composition.Compose

/-!
# Compiling with a memory

One compiler serves many calls on one store and keeps what it has compiled: elements by name
and overrides, objects by name and overrides. A kept object is given back without looking at what it
is made of. What a call compiles before it fails stays in memory.
-/

namespace Taxonomy

/-- Values that have been computed, by key. -/
structure Cache (κ : Type) (α : Type) where
  entries : List (κ × α) := []

namespace Cache

variable {κ α : Type} [DecidableEq κ]

def get? (c : Cache κ α) (key : κ) : Option α :=
  (c.entries.find? (fun e => e.1 = key)).map (·.2)

/-- Keep a value under a key that has none. -/
def insertNew (c : Cache κ α) (key : κ) (value : α) : Cache κ α :=
  match c.get? key with
  | some _ => c
  | none => ⟨(key, value) :: c.entries⟩

def size (c : Cache κ α) : Nat :=
  c.entries.length

end Cache

/-- What a compiler has compiled so far. -/
structure Memory where
  elements : Cache (String × ValueOverrides) CompiledElement := {}
  objects : Cache (String × ObjectOverrides) CompiledObject := {}

/-- The numbers of elements and objects in memory. -/
def Memory.sizes (m : Memory) : Nat × Nat :=
  (m.elements.size, m.objects.size)

/-- A computation that uses a memory, which it leaves behind even if it fails. -/
abbrev Remembering (α : Type) : Type :=
  Memory → Except TaxonomyError α × Memory

namespace Remembering

protected def pure (a : α) : Remembering α :=
  fun m => (.ok a, m)

protected def bind (x : Remembering α) (f : α → Remembering β) : Remembering β := fun m =>
  match x m with
  | (.ok a, m) => f a m
  | (.error e, m) => (.error e, m)

/-- A computation that does not use the memory. -/
def ofExcept (x : Except TaxonomyError α) : Remembering α :=
  fun m => (x, m)

instance : Monad Remembering where
  pure := Remembering.pure
  bind := Remembering.bind

end Remembering

namespace Store

/-- Compile an element, or give it back from memory. -/
def compileElementOnce (s : Store) (name : String) (overrides : ValueOverrides) :
    Remembering CompiledElement := fun m =>
  match m.elements.get? (name, overrides) with
  | some e => (.ok e, m)
  | none =>
    match s.compileElement name overrides with
    | .error fault => (.error fault, m)
    | .ok e => (.ok e, { m with elements := m.elements.insertNew (name, overrides) e })

/-- Keep an object in memory. -/
def keepObject (name : String) (overrides : ObjectOverrides) (o : CompiledObject) :
    Remembering CompiledObject := fun m =>
  (.ok o, { m with objects := m.objects.insertNew (name, overrides) o })

/-- The parts of a list of properties. -/
def compileParts (s : Store) (overrides : ObjectOverrides)
    (nested : String → Remembering CompiledObject) :
    List PropertyDefinition → Remembering Parts
  | [] => pure {}
  | ⟨property, .array items⟩ :: rest => do
    return (← compileParts s overrides nested rest).addArray property items
  | ⟨property, .schema target⟩ :: rest => do
    match ← Remembering.ofExcept (s.classify target) with
    | .element =>
      let e ← s.compileElementOnce target (overrides.at property)
      return (← compileParts s overrides nested rest).addElement property e
    | .object =>
      let o ← nested target
      return (← compileParts s overrides nested rest).addObject property o
    | .array =>
      let parts ← compileParts s overrides nested rest
      match s.arrayItemsOf? (.schema target) with
      | some items => return parts.addArray property items
      | none => return parts

/-- Compile the object of a name that a path of objects leads to, or give it back from memory. The
path is looked at first. -/
def compileOn (s : Store) (path : List String) (name : String) (overrides : ObjectOverrides) :
    Remembering CompiledObject := fun m =>
  if _hpath : name ∈ path then (.error (.cyclicSchema (cycleOf path name)), m)
  else
    match m.objects.get? (name, overrides) with
    | some o => (.ok o, m)
    | none =>
      match _hdefinition : s.objectWithParent name with
      | .error e => (.error e, m)
      | .ok definition =>
        (do
          let parts ← s.compileParts overrides
            (fun target => s.compileOn (path ++ [name]) target .empty) definition.properties
          keepObject name overrides (parts.assemble name definition)) m
termination_by s.unvisited path
decreasing_by exact unvisited_append_lt _hpath (object_of_objectWithParent _hdefinition)

/-- Compile the object of a name, or give it back from memory. -/
def compile (s : Store) (name : String) (overrides : ObjectOverrides) :
    Remembering CompiledObject :=
  s.compileOn [] name overrides

end Store

end Taxonomy
