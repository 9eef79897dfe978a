import Taxonomy.Proofs.Composition.Session

/-!
# How a memory grows

A compiler changes its memory in one way only: it keeps a value under a key that has none. So
whatever is asked of it, and whether it succeeds or fails, nothing that is kept is changed or lost,
no count gets smaller, and no key is kept twice.
-/

namespace Taxonomy

namespace Cache

variable {κ α : Type} [DecidableEq κ] {c c' : Cache κ α} {key other : κ} {value kept : α}

/-- No key has two values. -/
def Distinct (c : Cache κ α) : Prop :=
  (c.entries.map (·.1)).Nodup

theorem isSome_get?_iff : (c.get? key).isSome = true ↔ key ∈ c.entries.map (·.1) := by
  simp [get?, List.find?_isSome]

/-- The cache comes from another by keeping new values. -/
def Grows : Cache κ α → Cache κ α → Prop :=
  Relation.ReflTransGen fun c c' => ∃ key value, c' = c.insertNew key value

namespace Grows

theorem get? (h : c.Grows c') (hkept : c.get? key = some kept) : c'.get? key = some kept := by
  induction h with
  | refl => exact hkept
  | tail _ hstep ih =>
      obtain ⟨other, value, rfl⟩ := hstep
      rw [get?_insertNew]
      split
      · rename_i hsame
        rw [hsame, ih, Option.getD_some]
      · exact ih

theorem size_le (h : c.Grows c') : c.size ≤ c'.size := by
  induction h with
  | refl => exact Nat.le_refl _
  | @tail middle _ _ hstep ih =>
      obtain ⟨key, value, rfl⟩ := hstep
      refine Nat.le_trans ih ?_
      cases hkey : middle.get? key <;> simp [insertNew, hkey, size]

theorem distinct (h : c.Grows c') (hc : c.Distinct) : c'.Distinct := by
  induction h with
  | refl => exact hc
  | @tail middle _ _ hstep ih =>
      obtain ⟨key, value, rfl⟩ := hstep
      cases hkey : middle.get? key with
      | some kept => simpa only [insertNew, hkey] using ih
      | none =>
          have hnew : key ∉ middle.entries.map (·.1) := by
            rw [← isSome_get?_iff, hkey]
            exact Bool.false_ne_true
          simpa only [insertNew, hkey, Distinct, List.map_cons] using List.nodup_cons.mpr ⟨hnew, ih⟩

end Grows

end Cache

namespace Memory

variable {m m' m'' : Memory}

/-- The memory comes from another by keeping new values. -/
structure Grows (m m' : Memory) : Prop where
  elements : m.elements.Grows m'.elements
  objects : m.objects.Grows m'.objects

theorem Grows.refl (m : Memory) : m.Grows m where
  elements := .refl
  objects := .refl

theorem Grows.trans (h : m.Grows m') (h' : m'.Grows m'') : m.Grows m'' where
  elements := h.elements.trans h'.elements
  objects := h.objects.trans h'.objects

/-- No count is smaller than before, and everything that was kept is kept unchanged. -/
structure Extends (m m' : Memory) : Prop where
  elementCount : m.sizes.1 ≤ m'.sizes.1
  objectCount : m.sizes.2 ≤ m'.sizes.2
  elements : ∀ key e, m.elements.get? key = some e → m'.elements.get? key = some e
  objects : ∀ key o, m.objects.get? key = some o → m'.objects.get? key = some o

theorem Grows.extends (h : m.Grows m') : m.Extends m' where
  elementCount := h.elements.size_le
  objectCount := h.objects.size_le
  elements _ _ := h.elements.get?
  objects _ _ := h.objects.get?

end Memory

namespace Remembering

variable {α β : Type} {x : Remembering α} {f : α → Remembering β}

/-- From every memory the computation leaves one that has grown, also where it fails. -/
def Grows (x : Remembering α) : Prop :=
  ∀ m : Memory, m.Grows (x m).2

namespace Grows

theorem ofExcept (result : Except TaxonomyError α) : Grows (Remembering.ofExcept result) :=
  fun m => .refl m

theorem pure (a : α) : Grows (Pure.pure a : Remembering α) :=
  fun m => .refl m

theorem bind (hx : Grows x) (hf : ∀ a, Grows (f a)) : Grows (x >>= f) := by
  intro m
  have hfirst := hx m
  generalize hrun : x m = run at hfirst
  obtain ⟨outcome, left⟩ := run
  cases outcome with
  | error fault =>
      rw [bind_of_error hrun]
      exact hfirst
  | ok a =>
      rw [bind_of_ok hrun]
      exact hfirst.trans (hf a left)

end Grows

end Remembering

namespace Store

open Remembering (Grows)

variable {name : String} {overrides : ObjectOverrides}

theorem compileElementOnce_grows (s : Store) (name : String) (o : ValueOverrides) :
    Grows (s.compileElementOnce name o) := by
  intro m
  rw [compileElementOnce]
  cases m.elements.get? (name, o) with
  | some e => exact .refl m
  | none =>
      cases s.compileElement name o with
      | error fault => exact .refl m
      | ok e => exact ⟨.single ⟨_, e, rfl⟩, .refl⟩

theorem keepObject_grows (name : String) (overrides : ObjectOverrides) (o : CompiledObject) :
    Grows (keepObject name overrides o) :=
  fun _ => ⟨.refl, .single ⟨_, o, rfl⟩⟩

theorem compileParts_grows (s : Store) {nested : String → Remembering CompiledObject}
    (hnested : ∀ target, Grows (nested target)) (properties : List PropertyDefinition) :
    Grows (s.compileParts overrides nested properties) := by
  induction properties with
  | nil => exact Grows.pure _
  | cons p rest ih =>
      obtain ⟨property, target⟩ := p
      cases target with
      | array items => exact ih.bind fun _ => Grows.pure _
      | schema target =>
          refine (Grows.ofExcept _).bind fun kind => ?_
          cases kind with
          | element =>
              refine (s.compileElementOnce_grows target _).bind fun _ => ?_
              exact ih.bind fun _ => Grows.pure _
          | object =>
              refine (hnested target).bind fun _ => ?_
              exact ih.bind fun _ => Grows.pure _
          | array =>
              refine ih.bind fun _ => ?_
              cases s.arrayItemsOf? (.schema target) <;> exact Grows.pure _

theorem compileOn_grows (s : Store) (path : List String) (name : String)
    (overrides : ObjectOverrides) : Grows (s.compileOn path name overrides) := by
  induction path, name using composition_induction s generalizing overrides with
  | step path name ih =>
      intro m
      by_cases hpath : name ∈ path
      · rw [compileOn_of_mem hpath]
        exact .refl m
      cases hkept : m.objects.get? (name, overrides) with
      | some o =>
          rw [compileOn_of_kept hpath hkept]
          exact .refl m
      | none =>
          rw [compileOn_of_not_kept hpath hkept]
          cases hdefinition : s.objectWithParent name with
          | error fault => exact .refl m
          | ok definition =>
              have hnested := ih definition hpath hdefinition
              exact ((s.compileParts_grows (fun target => hnested target .empty) _).bind
                fun parts => keepObject_grows name overrides _) m

/-- Whatever is requested of a compiler, its memory only grows. -/
theorem serve_grows (s : Store) (request : Request) : Grows (s.serve request) := by
  cases request with
  | element name overrides =>
      exact (s.compileElementOnce_grows name overrides).bind fun _ => Grows.pure _
  | object name overrides =>
      exact (s.compileOn_grows [] name overrides).bind fun _ => Grows.pure _

end Store

end Taxonomy
