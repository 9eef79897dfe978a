import Mathlib.Data.List.Permutation
import Taxonomy.Proofs.Composition.Parts
import Taxonomy.Proofs.Registry.Build
import Taxonomy.Proofs.Usage.Index

/-!
# Array usages of a registry

A registry knows array usages twice: each compiled object lists its arrays, and the index
lists them from the side of the items. The compiler and the index read the properties independently,
and they come to the same relations.
-/

namespace Taxonomy

namespace Registry

variable {s : Store} {r : Registry} {name target : String} {o : CompiledObject}
variable {u : UsageRelation}

theorem usages_of_build (h : build s = .ok r) : r.usages = UsageIndex.build s := by
  rw [build_eq_enterAll, Except.map_eq_ok_iff] at h
  obtain ⟨built, _, rfl⟩ := h
  rfl

theorem get?_objects_eq_some_iff :
    r.objects.get? name = some o ↔ CompiledSchema.object o ∈ r.entriesOf name := by
  simp [entriesOf]

/-- The objects of a registry are the declared objects, each as it is composed on its own. -/
theorem get?_objects_of_build (h : build s = .ok r) :
    r.objects.get? name = some o ↔
      s.DeclaresObject name ∧ s.compose name .empty = .ok o := by
  obtain ⟨hdeclared, hundeclared⟩ := entriesOf_of_build h
  rw [get?_objects_eq_some_iff]
  cases hentry : s.schemas.get? name with
  | none => simp [hundeclared name hentry, Store.DeclaresObject, hentry]
  | some definition =>
      obtain ⟨compiled, hcompiled, hentries⟩ := hdeclared name definition hentry
      rw [hentries, List.mem_singleton]
      cases definition with
      | object definition =>
          rw [Store.compileAlone, (s.compile_agrees name .empty {} s.sound_empty).1,
            Except.map_eq_ok_iff] at hcompiled
          obtain ⟨composed, hcomposed, rfl⟩ := hcompiled
          simp [Store.DeclaresObject, hentry, hcomposed, eq_comm]
      | element definition =>
          obtain ⟨e, _, rfl⟩ := Except.map_eq_ok_iff.mp hcompiled
          simp [Store.DeclaresObject, hentry]
      | array items =>
          cases hcompiled
          simp [Store.DeclaresObject, hentry]
      | unrecognized fault => cases hcompiled

theorem exists_object_of_build (h : build s = .ok r) (hdeclared : s.DeclaresObject name) :
    ∃ o, r.objects.get? name = some o := by
  obtain ⟨definition, hentry⟩ := hdeclared
  obtain ⟨compiled, hcompiled, hentries⟩ := (entriesOf_of_build h).1 name _ hentry
  obtain ⟨o, _, rfl⟩ := Except.map_eq_ok_iff.mp hcompiled
  refine ⟨o, get?_objects_eq_some_iff.mpr ?_⟩
  rw [hentries, List.mem_singleton]

/-- A relation holds in the document exactly if its owner is registered with an array of its
property and items. -/
theorem holds_iff_of_build (h : build s = .ok r) :
    s.Holds u ↔ ∃ o, r.objects.get? u.owner = some o ∧ ⟨u.property, u.target⟩ ∈ o.arrays := by
  have harrays : ∀ {definition o}, s.schemas.get? u.owner = some (.object definition) →
      r.objects.get? u.owner = some o →
      (⟨u.property, u.target⟩ ∈ o.arrays ↔
        (u.property, u.target) ∈ s.arrayProperties definition) := by
    intro definition o hentry hregistered
    rw [Store.arrays_of_compose hentry ((get?_objects_of_build h).mp hregistered).2]
    simp
  constructor
  · rintro ⟨definition, hentry, hproperty⟩
    obtain ⟨o, hregistered⟩ := exists_object_of_build h ⟨definition, hentry⟩
    exact ⟨o, hregistered, (harrays hentry hregistered).mpr hproperty⟩
  · rintro ⟨o, hregistered, harray⟩
    obtain ⟨definition, hentry⟩ := ((get?_objects_of_build h).mp hregistered).1
    exact ⟨definition, hentry, (harrays hentry hregistered).mp harray⟩

/-- The index of a registry and its compiled objects describe the same array ownership. The
relations are those of the arrays of the registered objects, listed once each, in strict order; and
the owners of a target are the registered objects with an array of it, in ascending order. -/
theorem usages_iff_arrays (h : build s = .ok r) :
    (∀ u, u ∈ r.usages.relations ↔
      ∃ name o, r.objects.get? name = some o ∧ ∃ a ∈ o.arrays, u = ⟨o.name, a.items, a.property⟩) ∧
    r.usages.relations.Pairwise UsageRelation.Precedes ∧ r.usages.relations.Nodup ∧
    ∀ target,
      (r.usages.ownersOf target).Pairwise (fun a b => Text.bytes a < Text.bytes b) ∧
      ∀ name, name ∈ r.usages.ownersOf target ↔
        ∃ o, r.objects.get? name = some o ∧ ∃ a ∈ o.arrays, a.items = target := by
  have hindex := UsageIndex.wellFormed_build s
  rw [usages_of_build h]
  refine ⟨?_, hindex.pairwise_relations, hindex.nodup_relations, fun target => ⟨?_, ?_⟩⟩
  · intro u
    rw [Store.mem_relations_build, holds_iff_of_build h]
    constructor
    · rintro ⟨o, hregistered, harray⟩
      refine ⟨u.owner, o, hregistered, _, harray, ?_⟩
      rw [Store.name_of_compose ((get?_objects_of_build h).mp hregistered).2]
    · rintro ⟨name, o, hregistered, a, ha, rfl⟩
      rw [Store.name_of_compose ((get?_objects_of_build h).mp hregistered).2]
      exact ⟨o, hregistered, ha⟩
  · exact (UsageIndex.pairwise_ownersOf _ target).imp Text.before_iff_bytes_lt.mp
  · intro name
    rw [Store.mem_ownersOf_build, Store.Uses]
    simp only [holds_iff_of_build h]
    constructor
    · rintro ⟨property, o, hregistered, harray⟩
      exact ⟨o, hregistered, _, harray, rfl⟩
    · rintro ⟨o, hregistered, ⟨property, _⟩, ha, rfl⟩
      exact ⟨property, o, hregistered, ha⟩

/-- A depot has modules in an array of its own and keeps spare ones in a stock, which is a named
array; a rack has only such spares. -/
def depots : Store where
  source := none
  schemas := .ofList [
    ("Depot", .object ⟨none, "", [⟨"Modules", .array "Module"⟩, ⟨"Spares", .schema "Stock"⟩]⟩),
    ("Module", .object ⟨none, "", []⟩),
    ("Rack", .object ⟨none, "", [⟨"Spares", .schema "Stock"⟩]⟩),
    ("Stock", .array "Module")]
  itemTypes := .empty
  itemTypeGroups := .empty

/-- The three relations of the depots are the arrays of their objects. -/
theorem usages_iff_arrays_depots :
    ∃ r, build depots = .ok r ∧
      r.usages.relations = [⟨"Depot", "Module", "Modules"⟩, ⟨"Depot", "Module", "Spares"⟩,
        ⟨"Rack", "Module", "Spares"⟩] ∧
      ∀ u, u ∈ r.usages.relations ↔ ∃ name o, r.objects.get? name = some o ∧
        ∃ a ∈ o.arrays, u = ⟨o.name, a.items, a.property⟩ := by
  have hrelations : (UsageIndex.build depots).relations = [⟨"Depot", "Module", "Modules"⟩,
      ⟨"Depot", "Module", "Spares"⟩, ⟨"Rack", "Module", "Spares"⟩] := by
    decide +kernel
  -- The schemas are compiled one by one: evaluating the whole build at once takes far longer.
  have hcompile : depots.schemas.entries.all (fun e =>
      (depots.compileAlone e.1 e.2).toBool) = true := by
    cbv
  obtain ⟨r, hbuild⟩ := exists_build_of_all hcompile
  exact ⟨r, hbuild, by rw [usages_of_build hbuild, hrelations], (usages_iff_arrays hbuild).1⟩

end Registry

end Taxonomy
