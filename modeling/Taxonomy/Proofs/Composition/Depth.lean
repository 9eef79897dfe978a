import Mathlib.Data.List.Permutation
import Taxonomy.Proofs.Composition.Memory

/-!
# How deep a compilation goes

While the properties of an object are compiled, the compiler is called again for the objects that
they name, on a path that is one name longer. The path of a call that gets as far as its properties
is, with the name of the call, a walk through the document that passes no object twice; so there are
never more calls inside each other than objects declared and one, and a compiler that could not go
any deeper would compile the same. This holds of cyclic documents too, and whatever is in memory.
-/

namespace Taxonomy

/-- A call of the compiler, with the memory that it finds. -/
structure Call where
  path : List String
  name : String
  overrides : ObjectOverrides
  memory : Memory

/-- The number of calls that are under way in the call, itself included. -/
def Call.depth (c : Call) : Nat :=
  c.path.length + 1

namespace Remembering

/-- Sequencing is associative, and a result that is there already is no step. -/
instance lawfulMonad : LawfulMonad Remembering :=
  LawfulMonad.mk' Remembering
    (fun x => funext fun m => by
      change Remembering.bind x Remembering.pure m = x m
      rw [Remembering.bind]
      rcases x m with ⟨fault | a, left⟩ <;> rfl)
    (fun a f => rfl)
    (fun x f g => funext fun m => by
      change Remembering.bind (Remembering.bind x f) g m =
        Remembering.bind x (fun a => Remembering.bind (f a) g) m
      simp only [Remembering.bind]
      rcases x m with ⟨fault | a, left⟩ <;> rfl)

/-- Sequences that take the same first step, and go on alike from where it leads, end alike. -/
theorem bind_congr {α β : Type} {x x' : Remembering α} {f f' : α → Remembering β} {m : Memory}
    (hx : x m = x' m) (hf : ∀ a left, x m = (.ok a, left) → f a left = f' a left) :
    (x >>= f) m = (x' >>= f') m := by
  rcases hrun : x m with ⟨fault | a, left⟩
  · rw [bind_of_error hrun, bind_of_error (hx.symm.trans hrun)]
  · rw [bind_of_ok hrun, bind_of_ok (hx.symm.trans hrun), hf a left hrun]

end Remembering

namespace Store

variable {s : Store} {m m' left : Memory} {path names : List String} {name target : String}
variable {overrides : ObjectOverrides} {c c' : Call}
variable {nested nested' : String → Remembering CompiledObject}
variable {properties : List PropertyDefinition}

/-! ### One property after the other -/

/-- Compile what one property stands for: how it is added to the parts of the properties after it. -/
def compileProperty (s : Store) (overrides : ObjectOverrides)
    (nested : String → Remembering CompiledObject) (p : PropertyDefinition) :
    Remembering (Parts → Parts) :=
  match p.target with
  | .array items => pure fun parts => parts.addArray p.name items
  | .schema target => do
    match ← Remembering.ofExcept (s.classify target) with
    | .element =>
      let e ← s.compileElementOnce target (overrides.at p.name)
      return fun parts => parts.addElement p.name e
    | .object =>
      let o ← nested target
      return fun parts => parts.addObject p.name o
    | .array =>
      match s.arrayItemsOf? (.schema target) with
      | some items => return fun parts => parts.addArray p.name items
      | none => return id

/-- The properties are compiled in order, each with the memory that those before it have left. -/
theorem compileParts_cons (p : PropertyDefinition) (rest : List PropertyDefinition) :
    s.compileParts overrides nested (p :: rest) = (do
      let add ← s.compileProperty overrides nested p
      let parts ← s.compileParts overrides nested rest
      return add parts) := by
  obtain ⟨property, target⟩ := p
  cases target with
  | array items => rfl
  | schema target =>
      simp only [compileParts, compileProperty, bind_assoc]
      refine congrArg _ (funext fun kind => ?_)
      cases kind with
      | element => simp only [bind_assoc, pure_bind]
      | object => simp only [bind_assoc, pure_bind]
      | array =>
          cases s.arrayItemsOf? (.schema target) with
          | none => simp only [pure_bind, id_eq]
          | some items => simp only [pure_bind]

/-- While the properties are compiled from the memory, the object of a name is asked for with the
memory that is left then. -/
def AsksFor (s : Store) (overrides : ObjectOverrides) (nested : String → Remembering CompiledObject)
    (properties : List PropertyDefinition) (m : Memory) (target : String) (left : Memory) : Prop :=
  ∃ before property after parts, properties = before ++ ⟨property, .schema target⟩ :: after ∧
    s.classify target = .ok .object ∧ s.compileParts overrides nested before m = (.ok parts, left)

/-- A first property that names an object asks for it at once. -/
theorem asksFor_first {property : String} {rest : List PropertyDefinition}
    (hkind : s.classify target = .ok .object) :
    s.AsksFor overrides nested (⟨property, .schema target⟩ :: rest) m target m :=
  ⟨[], property, rest, {}, rfl, hkind, rfl⟩

/-- What is asked for after the first property is asked for with the memory that it has left. -/
theorem AsksFor.later {p : PropertyDefinition} {rest : List PropertyDefinition}
    {add : Parts → Parts} (h : s.AsksFor overrides nested rest m' target left)
    (hfirst : s.compileProperty overrides nested p m = (.ok add, m')) :
    s.AsksFor overrides nested (p :: rest) m target left := by
  obtain ⟨before, property, after, parts, hsplit, hkind, hbefore⟩ := h
  refine ⟨p :: before, property, after, add parts, by rw [hsplit, List.cons_append], hkind, ?_⟩
  rw [compileParts_cons, Remembering.bind_of_ok hfirst, Remembering.bind_of_ok hbefore]
  rfl

/-- What a property stands for depends on nested objects only if it asks for one. -/
theorem compileProperty_congr {p : PropertyDefinition}
    (h : ∀ target, p.target = .schema target → s.classify target = .ok .object →
      nested target m = nested' target m) :
    s.compileProperty overrides nested p m = s.compileProperty overrides nested' p m := by
  cases htarget : p.target with
  | array items => simp only [compileProperty, htarget]
  | schema target =>
      simp only [compileProperty, htarget]
      cases hkind : s.classify target with
      | error fault => rfl
      | ok kind =>
          cases kind with
          | element | array => rfl
          | object =>
              refine Remembering.bind_congr rfl fun kind left hrun => ?_
              cases hrun
              exact Remembering.bind_congr (h target htarget hkind) fun _ _ _ => rfl

/-- The parts of an object are determined by the answers to what is asked for. -/
theorem compileParts_congr
    (h : ∀ target left, s.AsksFor overrides nested properties m target left →
      nested target left = nested' target left) :
    s.compileParts overrides nested properties m = s.compileParts overrides nested' properties m := by
  induction properties generalizing m with
  | nil => rfl
  | cons p rest ih =>
      have hfirst : s.compileProperty overrides nested p m =
          s.compileProperty overrides nested' p m := by
        refine compileProperty_congr fun target htarget hkind => h target m ?_
        obtain ⟨property, _⟩ := p
        cases htarget
        exact asksFor_first hkind
      rw [compileParts_cons, compileParts_cons]
      refine Remembering.bind_congr hfirst fun add middle hrun => ?_
      refine Remembering.bind_congr ?_ fun _ _ _ => rfl
      exact ih fun target left hasks => h target left (hasks.later hrun)

/-! ### Calls inside each other -/

/-- While a call compiles the properties of its object it makes the other call. -/
inductive Enters (s : Store) : Call → Call → Prop
  | nested {path : List String} {name : String} {overrides : ObjectOverrides} {m : Memory}
      {definition : ObjectDefinition} {target : String} {left : Memory} (fresh : name ∉ path)
      (missing : m.objects.get? (name, overrides) = none)
      (declared : s.objectWithParent name = .ok definition)
      (asked : s.AsksFor overrides (fun part => s.compileOn (path ++ [name]) part .empty)
        definition.properties m target left) :
      Enters s ⟨path, name, overrides, m⟩ ⟨path ++ [name], target, .empty, left⟩

/-- The names are a walk of declared objects through the document that passes none twice. -/
structure SimpleChain (s : Store) (names : List String) : Prop where
  distinct : names.Nodup
  declared : ∀ name ∈ names, s.DeclaresObject name
  linked : names.IsChain s.Composes

/-- A name that is not on the path continues it if it is that of a declared object to which the path
leads. -/
theorem SimpleChain.snoc (h : s.SimpleChain path) (hlead : s.LeadsTo path name) (hpath : name ∉ path)
    (hname : s.DeclaresObject name) : s.SimpleChain (path ++ [name]) where
  distinct := by
    refine List.nodup_append.mpr ⟨h.distinct, by simp, ?_⟩
    rintro x hx y hy rfl
    exact hpath (List.mem_singleton.mp hy ▸ hx)
  declared := by
    intro x hx
    rcases List.mem_append.mp hx with hx | hx
    · exact h.declared x hx
    · rwa [List.mem_singleton.mp hx]
  linked := hlead

/-- The names of the declared objects. -/
def objectNames (s : Store) : List String :=
  s.schemas.names.filter fun name => (s.object name).toBool

theorem mem_objectNames_iff : name ∈ s.objectNames ↔ s.DeclaresObject name := by
  rw [objectNames, List.mem_filter]
  constructor
  · rintro ⟨-, hobject⟩
    obtain ⟨definition, hdefinition⟩ := Except.exists_of_toBool hobject
    exact ⟨definition, object_eq_ok_iff.mp hdefinition⟩
  · rintro ⟨definition, hentry⟩
    have hobject : s.object name = .ok definition := object_eq_ok_iff.mpr hentry
    refine ⟨mem_names_of_object hobject, ?_⟩
    rw [hobject]
    rfl

/-- A simple chain is no longer than there are objects. -/
theorem SimpleChain.length_le (h : s.SimpleChain names) : names.length ≤ s.objectNames.length := by
  have hsubset : names ⊆ s.objectNames := fun name hname =>
    mem_objectNames_iff.mpr (h.declared name hname)
  exact (List.subperm_of_subset h.distinct hsubset).length_le

/-- The path of the call is a simple chain that leads to its name. -/
structure OnChain (s : Store) (c : Call) : Prop where
  path : s.SimpleChain c.path
  leads : s.LeadsTo c.path c.name

/-- A call from the start has nothing on its path. -/
theorem onChain_start (s : Store) (name : String) (overrides : ObjectOverrides) (m : Memory) :
    s.OnChain ⟨[], name, overrides, m⟩ where
  path := ⟨List.nodup_nil, fun _ h => absurd h List.not_mem_nil, .nil⟩
  leads := s.leadsTo_nil name

/-- A call that goes on to a declared object, not yet on the path, has the object at the end of a
simple chain. -/
theorem OnChain.reached (h : s.OnChain c) (hpath : c.name ∉ c.path)
    (hname : s.DeclaresObject c.name) : s.SimpleChain (c.path ++ [c.name]) :=
  h.path.snoc h.leads hpath hname

/-- A call from a call on a simple chain is on a simple chain. -/
theorem OnChain.enters (h : s.OnChain c) (hstep : s.Enters c c') : s.OnChain c' := by
  cases hstep with
  | @nested path name overrides m definition target left fresh missing declared asked =>
      obtain ⟨before, property, after, parts, hsplit, hkind, -⟩ := asked
      have hdeclared : s.DeclaresObject target := classify_eq_object_iff.mp hkind
      have hname : s.DeclaresObject name := ⟨definition, (objectWithParent_eq_ok_iff.mp declared).1⟩
      have hmem : ⟨property, .schema target⟩ ∈ definition.properties := by simp [hsplit]
      exact ⟨h.reached fresh hname,
        h.leads.step (composes_of_target declared hmem rfl hdeclared)⟩

/-- All calls of a compilation are on simple chains. -/
theorem OnChain.of_reflTransGen (h : s.OnChain c) (hcalls : Relation.ReflTransGen s.Enters c c') :
    s.OnChain c' := by
  induction hcalls with
  | refl => exact h
  | tail _ hstep ih => exact ih.enters hstep

/-! ### A compiler of bounded depth -/

/-- The compiler with at most so many calls inside each other, and something else in place of the
calls that would be deeper. -/
def compileWithin (s : Store)
    (deeper : List String → String → ObjectOverrides → Remembering CompiledObject) :
    (depth : Nat) → List String → String → ObjectOverrides → Remembering CompiledObject
  | 0 => deeper
  | depth + 1 => fun path name overrides m =>
    if name ∈ path then (.error (.cyclicSchema (cycleOf path name)), m)
    else
      match m.objects.get? (name, overrides) with
      | some o => (.ok o, m)
      | none =>
        (do
          let definition ← Remembering.ofExcept (s.objectWithParent name)
          let parts ← s.compileParts overrides
            (fun target => s.compileWithin deeper depth (path ++ [name]) target .empty)
            definition.properties
          keepObject name overrides (parts.assemble name definition)) m

/-- A compiler that can go as deep as there are objects left, and one call more, compiles as one
without a bound. -/
theorem compileWithin_eq_compileOn
    {deeper : List String → String → ObjectOverrides → Remembering CompiledObject} {depth : Nat}
    (hchain : s.OnChain c) (hdepth : s.objectNames.length < depth + c.path.length) :
    s.compileWithin deeper depth c.path c.name c.overrides c.memory =
      s.compileOn c.path c.name c.overrides c.memory := by
  induction depth generalizing c with
  | zero =>
      have hlength := hchain.path.length_le
      omega
  | succ depth ih =>
      obtain ⟨path, name, overrides, m⟩ := c
      dsimp only at *
      by_cases hpath : name ∈ path
      · simp only [compileWithin, if_pos hpath, compileOn_of_mem hpath]
      cases hkept : m.objects.get? (name, overrides) with
      | some o => simp only [compileWithin, if_neg hpath, hkept, compileOn_of_kept hpath hkept]
      | none =>
          simp only [compileWithin, if_neg hpath, hkept, compileOn_of_not_kept hpath hkept]
          refine Remembering.bind_congr rfl fun definition left hrun => ?_
          obtain ⟨hdefinition, rfl⟩ := Prod.mk.inj hrun
          refine Remembering.bind_congr ?_ fun _ _ _ => rfl
          -- What is asked for is known of the compiler without a bound.
          symm
          refine compileParts_congr fun target later hasks => ?_
          have hstep := hchain.enters (.nested hpath hkept hdefinition hasks)
          refine (ih hstep ?_).symm
          rw [List.length_append, List.length_singleton]
          omega

/-- Compiling stays on simple chains, whatever is in memory. No call is deeper than one more than
there are objects; and if the name of a call is not on its path and is that of an object, then path
and name are a walk of distinct declared objects, each of which a property of the one before it
names. So a compiler with calls to that depth compiles the same, whatever is put in place of deeper
ones. -/
theorem compile_stays_on_chains (s : Store) (name : String) (overrides : ObjectOverrides)
    (m : Memory) :
    (∀ c, Relation.ReflTransGen s.Enters ⟨[], name, overrides, m⟩ c →
      c.depth ≤ s.objectNames.length + 1 ∧
      ∀ definition, c.name ∉ c.path → s.object c.name = .ok definition →
        s.SimpleChain (c.path ++ [c.name])) ∧
    ∀ deeper, s.compileWithin deeper (s.objectNames.length + 1) [] name overrides m =
      s.compile name overrides m := by
  have hstart := s.onChain_start name overrides m
  refine ⟨fun c hcalls => ?_, fun deeper => ?_⟩
  · have hchain := hstart.of_reflTransGen hcalls
    refine ⟨Nat.succ_le_succ hchain.path.length_le, fun definition hpath hobject => ?_⟩
    exact hchain.reached hpath ⟨definition, object_eq_ok_iff.mp hobject⟩
  · exact compileWithin_eq_compileOn hstart (by simp)

end Store

end Taxonomy
