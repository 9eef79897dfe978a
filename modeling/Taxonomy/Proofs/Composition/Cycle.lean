import Mathlib.Data.List.Permutation
import Taxonomy.Proofs.Composition.Session
import Taxonomy.Proofs.Element.Compile

/-!
# Reported cycles

The path of a compilation is a walk through the document without repetitions. A cycle is
reported when its next name is on it already, and what is reported is the part of the walk from that
name on; so the report is a cycle of the composition graph, and the walk has come to it.
-/

namespace Taxonomy.Store

variable {s : Store} {path cycle : List String} {name root : String}
variable {overrides : ObjectOverrides}

/-- A closed walk through the document that passes no object twice before it closes. -/
structure IsCycle (s : Store) (cycle : List String) : Prop where
  two_le_length : 2 ≤ cycle.length
  closed : cycle.head? = cycle.getLast?
  distinct : cycle.dropLast.Nodup
  edges : cycle.IsChain s.Composes

/-- The part of a path that a name closes starts where the name stands on the path. -/
theorem exists_cycleOf_eq (h : name ∈ path) :
    ∃ front back, path = front ++ name :: back ∧ cycleOf path name = name :: back ++ [name] := by
  obtain ⟨front, back, rfl, hfront⟩ := List.eq_append_cons_of_mem h
  refine ⟨front, back, rfl, ?_⟩
  rw [cycleOf, List.dropWhile_append_of_pos]
  · simp
  · intro x hx
    simp only [bne_iff_ne, ne_eq]
    rintro rfl
    exact hfront hx

/-- A name that is met again on a walk without repetitions closes a cycle. -/
theorem isCycle_cycleOf (hlead : s.LeadsTo path name) (hnodup : path.Nodup) (h : name ∈ path) :
    s.IsCycle (cycleOf path name) := by
  obtain ⟨front, back, hpath, hcycle⟩ := exists_cycleOf_eq h
  rw [hcycle]
  refine ⟨by simp, by rw [List.getLast?_concat, List.cons_append, List.head?_cons], ?_, ?_⟩
  · rw [List.dropLast_concat]
    rw [hpath] at hnodup
    exact (List.nodup_append.mp hnodup).2.1
  · rw [LeadsTo, hpath, List.append_assoc] at hlead
    exact hlead.right_of_append

/-- A property reports a cycle only for the object that it names. -/
theorem exists_of_composeProperty_cyclic {nested : String → Except TaxonomyError CompiledObject}
    {p : PropertyDefinition}
    (h : s.composeProperty overrides nested p = .error (.cyclicSchema cycle)) :
    ∃ target, p.target = .schema target ∧ s.DeclaresObject target ∧
      nested target = .error (.cyclicSchema cycle) := by
  cases htarget : p.target with
  | array items => simp [composeProperty, htarget] at h
  | schema target =>
      simp only [composeProperty, htarget] at h
      rcases Except.bind_eq_error_iff.mp h with hlookup | ⟨entry, hentry, h⟩
      · exact absurd hlookup (s.lookup_noCycle target cycle)
      cases entry with
      | element e =>
          exact absurd (Except.map_eq_error_iff.mp h) (s.compileElement_noCycle target _ cycle)
      | object definition =>
          have hobject : s.object target = .ok definition := by simp [object, hentry]
          exact ⟨target, rfl, ⟨definition, object_eq_ok_iff.mp hobject⟩,
            Except.map_eq_error_iff.mp h⟩
      | array | unrecognized => cases h

theorem objectWithParent_noCycle (s : Store) (name : String) :
    NoCycle (s.objectWithParent name) := by
  refine (s.object_noCycle name).bind fun definition => ?_
  cases definition.parent with
  | none => exact NoCycle.ok _
  | some parent => exact (s.object_noCycle parent).bind fun _ => NoCycle.ok _

/-- Along a walk from the root without repetitions, a reported cycle is one, and the root reaches
it. -/
theorem isCycle_of_composeOn (hlead : s.LeadsTo path name) (hnodup : path.Nodup)
    (hroot : ∀ x ∈ path ++ [name], s.Reaches root x)
    (h : s.composeOn path name overrides = .error (.cyclicSchema cycle)) :
    s.IsCycle cycle ∧ ∃ first ∈ cycle.head?, s.Reaches root first := by
  induction path, name using composition_induction s generalizing overrides with
  | step path name ih =>
      by_cases hpath : name ∈ path
      · rw [composeOn_of_mem hpath] at h
        cases h
        refine ⟨isCycle_cycleOf hlead hnodup hpath, name, ?_, hroot name (by simp)⟩
        obtain ⟨_, back, _, hcycle⟩ := exists_cycleOf_eq hpath
        simp [hcycle]
      rw [composeOn_of_not_mem hpath] at h
      rcases Except.bind_eq_error_iff.mp h with hfault | ⟨definition, hdefinition, h⟩
      · exact absurd hfault (s.objectWithParent_noCycle name cycle)
      rcases Except.bind_eq_error_iff.mp h with hfault | ⟨_, _, h⟩
      · obtain ⟨p, hp, hproperty⟩ := exists_of_composeParts_error hfault
        obtain ⟨target, htarget, hdeclared, hnested⟩ :=
          exists_of_composeProperty_cyclic hproperty
        have hstep := composes_of_target hdefinition hp htarget hdeclared
        have hlonger : (path ++ [name]).Nodup := by
          refine List.nodup_append.mpr ⟨hnodup, by simp, ?_⟩
          rintro x hx y hy rfl
          exact hpath (List.mem_singleton.mp hy ▸ hx)
        refine ih definition hpath hdefinition target (hlead.step hstep) hlonger ?_ hnested
        intro x hx
        rcases List.mem_append.mp hx with hx | hx
        · exact hroot x hx
        · rw [List.mem_singleton.mp hx]
          exact (hroot name (by simp)).tail hstep
      · cases h

/-- A cycle that a compiler reports, after any requests before, is a cycle of the document, and the
object asked for reaches it. -/
theorem isCycle_of_compile_error (s : Store) (history : List Request) (name : String)
    (overrides : ObjectOverrides) (cycle : List String)
    (h : (s.compile name overrides (s.serveAll history {}).2).1 = .error (.cyclicSchema cycle)) :
    s.IsCycle cycle ∧ ∃ first ∈ cycle.head?, s.Reaches name first := by
  rw [(s.compile_agrees name overrides _ (s.sound_serveAll history)).1] at h
  refine isCycle_of_composeOn (s.leadsTo_nil name) List.nodup_nil ?_ h
  intro x hx
  rw [List.nil_append, List.mem_singleton] at hx
  subst hx
  exact .refl

/-- A crate holds a box; the box holds an inlay, and it and its lid hold each other. -/
def crates : Store where
  source := none
  schemas := .ofList [
    ("Box", .object ⟨none, "", [⟨"Inlay", .schema "Inlay"⟩, ⟨"Lid", .schema "Lid"⟩]⟩),
    ("Crate", .object ⟨none, "", [⟨"Box", .schema "Box"⟩]⟩),
    ("Inlay", .object ⟨none, "", []⟩),
    ("Lid", .object ⟨none, "", [⟨"Box", .schema "Box"⟩]⟩)]
  itemTypes := .empty
  itemTypeGroups := .empty

/-- The cycle need not begin with the object asked for, and what earlier requests left in memory
does not hide it. -/
theorem isCycle_of_compile_crate :
    (crates.compile "Crate" .empty
      (crates.serveAll [.object "Inlay" .empty, .object "Lid" .empty] {}).2).1 =
        .error (.cyclicSchema ["Box", "Lid", "Box"]) ∧
    crates.IsCycle ["Box", "Lid", "Box"] ∧
    ∃ first ∈ ["Box", "Lid", "Box"].head?, crates.Reaches "Crate" first := by
  have h : (crates.compile "Crate" .empty
      (crates.serveAll [.object "Inlay" .empty, .object "Lid" .empty] {}).2).1 =
        .error (.cyclicSchema ["Box", "Lid", "Box"]) := by
    cbv
  exact ⟨h, isCycle_of_compile_error crates _ "Crate" .empty _ h⟩

end Taxonomy.Store
