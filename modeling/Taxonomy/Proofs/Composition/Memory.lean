import Taxonomy.Composition.Compiler
import Taxonomy.Proofs.Composition.Reach

/-!
# Sound memories

A memory is sound if everything in it is what compiling afresh would give. A computation
with a memory agrees with a result if it gives that result from every sound memory and leaves a
sound memory behind, also where the result is a fault. Agreement is kept by sequencing, so it is
proved along the text of the compiler; only a kept object that is given back needs an argument,
since its parts are then not looked at again.
-/

namespace Taxonomy

namespace Cache

variable {κ α : Type} [DecidableEq κ]

/-- Keeping a value changes the answer for its own key only, and only where there was none. -/
theorem get?_insertNew (c : Cache κ α) (key other : κ) (value : α) :
    (c.insertNew key value).get? other =
      if key = other then some ((c.get? key).getD value) else c.get? other := by
  cases hkey : c.get? key with
  | some kept =>
      simp only [insertNew, hkey, Option.getD_some]
      split
      · rename_i hsame
        rw [← hsame, hkey]
      · rfl
  | none =>
      simp only [insertNew, hkey, Option.getD_none]
      by_cases hsame : key = other
      · simp [get?, hsame]
      · simp [get?, hsame]

/-- Every value in the cache fits its key. -/
def All (P : κ → α → Prop) (c : Cache κ α) : Prop :=
  ∀ ⦃key value⦄, c.get? key = some value → P key value

theorem all_empty (P : κ → α → Prop) : All P ({} : Cache κ α) := by
  intro key value h
  simp [get?] at h

theorem All.insertNew {P : κ → α → Prop} {c : Cache κ α} {key : κ} {value : α}
    (h : c.All P) (hvalue : P key value) : (c.insertNew key value).All P := by
  intro other found hfound
  rw [get?_insertNew] at hfound
  split at hfound
  · rename_i hsame
    subst hsame
    cases hold : c.get? key with
    | none =>
        rw [hold] at hfound
        cases hfound
        exact hvalue
    | some kept =>
        rw [hold] at hfound
        cases hfound
        exact h hold
  · exact h hfound

end Cache

namespace Remembering

variable {α β : Type} {x : Remembering α} {m left : Memory}

theorem bind_of_ok {a : α} (h : x m = (.ok a, left)) (f : α → Remembering β) :
    (x >>= f) m = f a left := by
  change Remembering.bind x f m = _
  rw [Remembering.bind, h]

/-- A computation that fails leaves behind what it had in memory. -/
theorem bind_of_error {e : TaxonomyError} (h : x m = (.error e, left)) (f : α → Remembering β) :
    (x >>= f) m = (.error e, left) := by
  change Remembering.bind x f m = _
  rw [Remembering.bind, h]

end Remembering

namespace Store

variable {s : Store} {path : List String} {name : String} {overrides : ObjectOverrides}
variable {m : Memory} {o : CompiledObject} {α β : Type}

/-- Everything in the memory is what compiling afresh gives. -/
structure Sound (s : Store) (m : Memory) : Prop where
  elements : m.elements.All fun key e => s.compileElement key.1 key.2 = .ok e
  objects : m.objects.All fun key o => s.compose key.1 key.2 = .ok o

theorem sound_empty (s : Store) : s.Sound {} where
  elements := Cache.all_empty _
  objects := Cache.all_empty _

/-- From every sound memory the computation gives the result and leaves a sound memory behind. -/
def Agrees (s : Store) (x : Remembering α) (result : Except TaxonomyError α) : Prop :=
  ∀ m, s.Sound m → (x m).1 = result ∧ s.Sound (x m).2

namespace Agrees

theorem ofExcept (result : Except TaxonomyError α) :
    s.Agrees (Remembering.ofExcept result) result :=
  fun _ hm => ⟨rfl, hm⟩

theorem pure (a : α) : s.Agrees (Pure.pure a) (.ok a) :=
  fun _ hm => ⟨rfl, hm⟩

/-- Sequencing keeps agreement. What follows is met only with the result of the first step. -/
theorem bind {x : Remembering α} {result : Except TaxonomyError α}
    {f : α → Remembering β} {g : α → Except TaxonomyError β}
    (hx : s.Agrees x result) (hf : ∀ a, result = .ok a → s.Agrees (f a) (g a)) :
    s.Agrees (x >>= f) (result >>= g) := by
  intro m hm
  obtain ⟨hresult, hsound⟩ := hx m hm
  generalize hrun : x m = run at hresult hsound
  obtain ⟨outcome, left⟩ := run
  subst hresult
  cases outcome with
  | error fault =>
      rw [Remembering.bind_of_error hrun]
      exact ⟨rfl, hsound⟩
  | ok a =>
      rw [Remembering.bind_of_ok hrun]
      exact hf a rfl left hsound

end Agrees

/-- An element that is kept is the one that compiling it afresh gives, also with these overrides. -/
theorem compileElementOnce_agrees (s : Store) (name : String) (o : ValueOverrides) :
    s.Agrees (s.compileElementOnce name o) (s.compileElement name o) := by
  intro m hm
  cases hkept : m.elements.get? (name, o) with
  | some e =>
      rw [compileElementOnce, hkept]
      exact ⟨(hm.elements hkept).symm, hm⟩
  | none =>
      rw [compileElementOnce, hkept]
      cases hcompile : s.compileElement name o with
      | error fault => exact ⟨rfl, hm⟩
      | ok e => exact ⟨rfl, hm.elements.insertNew hcompile, hm.objects⟩

/-- An object may be kept if it composes to the same from the start. -/
theorem keepObject_agrees (h : s.compose name overrides = .ok o) :
    s.Agrees (keepObject name overrides o) (.ok o) :=
  fun _ hm => ⟨rfl, hm.elements, hm.objects.insertNew h⟩

/-- The compiler takes properties as composition does. -/
theorem compileParts_agrees {nested : String → Remembering CompiledObject}
    {reference : String → Except TaxonomyError CompiledObject}
    {properties : List PropertyDefinition}
    (hnested : ∀ p ∈ properties, ∀ target, p.target = .schema target → s.DeclaresObject target →
      s.Agrees (nested target) (reference target)) :
    s.Agrees (s.compileParts overrides nested properties)
      (s.composeParts overrides reference properties) := by
  induction properties with
  | nil => exact Agrees.pure _
  | cons p rest ih =>
      obtain ⟨hp, hrest⟩ := List.forall_mem_cons.mp hnested
      have ih := ih hrest
      obtain ⟨property, target⟩ := p
      cases target with
      | array items => exact ih.bind fun parts _ => Agrees.pure _
      | schema target =>
          refine (Agrees.ofExcept _).bind fun kind hkind => ?_
          cases kind with
          | element =>
              refine (s.compileElementOnce_agrees target _).bind fun e _ => ?_
              exact ih.bind fun parts _ => Agrees.pure _
          | object =>
              refine (hp target rfl (classify_eq_object_iff.mp hkind)).bind fun o _ => ?_
              exact ih.bind fun parts _ => Agrees.pure _
          | array =>
              refine ih.bind fun parts _ => ?_
              cases s.arrayItemsOf? (.schema target) <;> exact Agrees.pure _

theorem compileOn_of_mem (h : name ∈ path) (m : Memory) :
    s.compileOn path name overrides m = (.error (.cyclicSchema (cycleOf path name)), m) := by
  rw [compileOn, dif_pos h]

theorem compileOn_of_kept (h : name ∉ path) (hkept : m.objects.get? (name, overrides) = some o) :
    s.compileOn path name overrides m = (.ok o, m) := by
  rw [compileOn, dif_neg h, hkept]

theorem compileOn_of_not_kept (h : name ∉ path)
    (hkept : m.objects.get? (name, overrides) = none) :
    s.compileOn path name overrides m = (do
      let definition ← Remembering.ofExcept (s.objectWithParent name)
      let parts ← s.compileParts overrides
        (fun target => s.compileOn (path ++ [name]) target .empty) definition.properties
      keepObject name overrides (parts.assemble name definition)) m := by
  rw [compileOn, dif_neg h, hkept]
  dsimp only
  split
  · rename_i fault hdefinition
    rw [hdefinition]
    rfl
  · rename_i definition hdefinition
    rw [hdefinition]
    rfl

/-- On a walk through the document the compiler agrees with composition. An object that is kept
composes from the start, hence on every walk that leads to it. -/
theorem compileOn_agrees (hlead : s.LeadsTo path name) (overrides : ObjectOverrides) :
    s.Agrees (s.compileOn path name overrides) (s.composeOn path name overrides) := by
  induction path, name using composition_induction s generalizing overrides with
  | step path name ih =>
      intro m hm
      by_cases hpath : name ∈ path
      · rw [compileOn_of_mem hpath, composeOn_of_mem hpath]
        exact ⟨rfl, hm⟩
      cases hkept : m.objects.get? (name, overrides) with
      | some o =>
          rw [compileOn_of_kept hpath hkept, composeOn_eq_compose (hm.objects hkept) hlead]
          exact ⟨rfl, hm⟩
      | none =>
          rw [compileOn_of_not_kept hpath hkept, composeOn_of_not_mem hpath]
          refine (Agrees.ofExcept _).bind (fun definition hdefinition => ?_) m hm
          refine (compileParts_agrees ?_).bind fun parts hparts => keepObject_agrees ?_
          · intro p hp target htarget hdeclared
            have hstep := composes_of_target hdefinition hp htarget hdeclared
            exact ih definition hpath hdefinition target (hlead.step hstep) .empty
          · exact compose_of_composeOn
              (composeOn_eq_ok_iff.mpr ⟨hpath, definition, hdefinition, parts, hparts, rfl⟩)

/-- A call of the compiler agrees with composing afresh. -/
theorem compile_agrees (s : Store) (name : String) (overrides : ObjectOverrides) :
    s.Agrees (s.compile name overrides) (s.compose name overrides) :=
  compileOn_agrees (s.leadsTo_nil name) overrides

end Store

end Taxonomy
