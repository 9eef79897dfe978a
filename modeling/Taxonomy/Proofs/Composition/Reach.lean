import Taxonomy.Proofs.Composition.Compose

/-!
# Compositions and what they reach

An object that composes has composed everything that it reaches, each part on a longer path.
So nothing that it reaches is on its path or on a cycle, and what it composes to does not depend on
the path, as long as the path stays clear of what is reached.
-/

namespace Taxonomy.Store

variable {s : Store} {path path' : List String} {name part x : String}
variable {overrides : ObjectOverrides} {o : CompiledObject}

/-- The objects that a composition goes on to are those that the name composes. -/
theorem composes_of_target {definition : ObjectDefinition} {p : PropertyDefinition}
    (hdefinition : s.objectWithParent name = .ok definition) (hp : p ∈ definition.properties)
    (htarget : p.target = .schema part) (hdeclared : s.DeclaresObject part) :
    s.Composes name part :=
  ⟨definition, (objectWithParent_eq_ok_iff.mp hdefinition).1, ⟨p, hp, htarget⟩, hdeclared⟩

/-- A part of an object that composes has composed on the path one longer. -/
theorem exists_composeOn_of_composes (h : s.composeOn path name overrides = .ok o)
    (hpart : s.Composes name part) :
    ∃ o', s.composeOn (path ++ [name]) part .empty = .ok o' := by
  obtain ⟨_, definition, hdefinition, parts, hparts, _⟩ := composeOn_eq_ok_iff.mp h
  obtain ⟨definition', hentry, ⟨p, hp, htarget⟩, hdeclared⟩ := hpart
  have hsame : definition' = definition := by
    rw [(objectWithParent_eq_ok_iff.mp hdefinition).1] at hentry
    cases hentry
    rfl
  subst hsame
  obtain ⟨contribution, hcontribution⟩ := exists_composeParts_iff.mp ⟨parts, hparts⟩ p hp
  rw [composeProperty_of_object htarget hdeclared, Except.map_eq_ok_iff] at hcontribution
  obtain ⟨o', ho', _⟩ := hcontribution
  exact ⟨o', ho'⟩

/-- Everything that is reached has composed, on a path that goes on from the first. -/
theorem exists_composeOn_of_reaches (h : s.composeOn path name overrides = .ok o)
    (hx : s.Reaches name x) :
    ∃ longer overrides' o', path ⊆ longer ∧ s.composeOn longer x overrides' = .ok o' := by
  induction hx with
  | refl => exact ⟨path, overrides, o, List.Subset.refl path, h⟩
  | tail _ hstep ih =>
      obtain ⟨longer, _, _, hsubset, hcomposed⟩ := ih
      obtain ⟨o', ho'⟩ := exists_composeOn_of_composes hcomposed hstep
      exact ⟨_, _, o', List.Subset.trans hsubset (List.subset_append_left longer _), ho'⟩

/-- Nothing that is reached is on the path. -/
theorem not_mem_of_reaches (h : s.composeOn path name overrides = .ok o)
    (hx : s.Reaches name x) : x ∉ path := by
  obtain ⟨longer, _, _, hsubset, hcomposed⟩ := exists_composeOn_of_reaches h hx
  exact fun hmem => (composeOn_eq_ok_iff.mp hcomposed).1 (hsubset hmem)

/-- An object that composes is on no cycle: its parts would meet it on their path. -/
theorem not_onCycle_of_composeOn (h : s.composeOn path name overrides = .ok o) :
    ¬ s.OnCycle name := by
  intro hcycle
  obtain ⟨part, hstep, hback⟩ := Relation.TransGen.head'_iff.mp hcycle
  obtain ⟨o', ho'⟩ := exists_composeOn_of_composes h hstep
  exact not_mem_of_reaches ho' hback (by simp)

/-- What an object composes to is the same on every path that is clear of what it reaches. -/
theorem composeOn_of_disjoint (h : s.composeOn path name overrides = .ok o)
    (hclear : ∀ x, s.Reaches name x → x ∉ path') :
    s.composeOn path' name overrides = .ok o := by
  induction path, name using composition_induction s generalizing path' overrides o with
  | step path name ih =>
      obtain ⟨hpath, definition, hdefinition, parts, hparts, hassemble⟩ := composeOn_eq_ok_iff.mp h
      refine composeOn_eq_ok_iff.mpr
        ⟨hclear name .refl, definition, hdefinition, parts, ?_, hassemble⟩
      rw [← hparts]
      refine composeParts_congr fun p hp => composeProperty_congr fun target htarget hdeclared => ?_
      have hstep := composes_of_target hdefinition hp htarget hdeclared
      obtain ⟨nested, hnested⟩ := exists_composeOn_of_composes h hstep
      rw [hnested]
      refine ih definition hpath hdefinition target hnested ?_
      intro x hx
      have hown : x ∉ path ++ [name] := not_mem_of_reaches hnested hx
      simp only [List.mem_append, List.mem_singleton, not_or] at hown ⊢
      exact ⟨hclear x (.head hstep hx), hown.2⟩

/-- An object that composes at all composes to the same on every walk that leads to it. The walk is
clear of what the object reaches, or the object would be on a cycle. -/
theorem composeOn_eq_compose (h : s.compose name overrides = .ok o)
    (hlead : s.LeadsTo path name) : s.composeOn path name overrides = .ok o := by
  refine composeOn_of_disjoint h fun x hx hmem => ?_
  exact not_onCycle_of_composeOn h (Relation.TransGen.trans_right hx (hlead.transGen hmem))

/-- What an object composes to on some path it composes to from the start. -/
theorem compose_of_composeOn (h : s.composeOn path name overrides = .ok o) :
    s.compose name overrides = .ok o :=
  composeOn_of_disjoint h fun _ _ => List.not_mem_nil

end Taxonomy.Store
