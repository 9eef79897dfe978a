import Mathlib.Data.List.Permutation
import Taxonomy.Proofs.Composition.Memory
import Taxonomy.Proofs.Composition.Parts
import Taxonomy.Proofs.Text.Split

/-!
# The columns of an object

A column is named by its element and its facet, and both can be read off the name: element
names may contain underscores, but facet names do not. The name says nothing of the property, so the
columns of an object have distinct names exactly if no two of its properties name one element. Where
two of them do, every column of that element is listed twice.
-/

namespace Taxonomy

namespace Facet

theorem name_inj {facet other : Facet} : facet.name = other.name ↔ facet = other := by
  cases facet <;> cases other <;> decide

theorem underscore_not_mem_name (facet : Facet) : '_' ∉ facet.name.toList := by
  cases facet <;> decide

end Facet

namespace FieldDescriptor

variable {f g : FieldDescriptor}

/-- A column name is read in one way only. -/
theorem columnName_inj :
    f.columnName = g.columnName ↔ f.element = g.element ∧ f.facet = g.facet := by
  have htext : ∀ f : FieldDescriptor,
      f.columnName.toList = f.element.toList ++ '_' :: f.facet.name.toList := by
    intro f
    simp [columnName]
  rw [← String.toList_inj, htext, htext,
    Text.append_cons_inj f.facet.underscore_not_mem_name g.facet.underscore_not_mem_name,
    String.toList_inj, String.toList_inj, Facet.name_inj]

end FieldDescriptor

namespace Store

variable {s : Store} {name other : String} {adjustments adjustments' : ValueOverrides}
variable {overrides : ObjectOverrides} {e e' : CompiledElement} {o : CompiledObject}
variable {definition : ObjectDefinition}

theorem nodup_facetNames (h : s.compileElement name adjustments = .ok e) :
    e.facetNames.Nodup := by
  obtain ⟨r, rfl⟩ := compileElement_eq_ok_iff.mp h
  rw [r.facetNames_compiled]
  have hall : Facet.all.Nodup := by decide
  exact hall.filter _

theorem element_of_mem_facets (h : s.compileElement name adjustments = .ok e)
    {f : FieldDescriptor} (hf : f ∈ e.facets) : f.element = e.name := by
  obtain ⟨r, rfl⟩ := compileElement_eq_ok_iff.mp h
  obtain ⟨facet, _, hfield⟩ := List.mem_filterMap.mp hf
  exact CompiledElement.element_of_field? hfield

/-- The columns of one element have distinct names. -/
theorem nodup_columnNames_of_compileElement (h : s.compileElement name adjustments = .ok e) :
    (e.facets.map (·.columnName)).Nodup := by
  have hfacets : (e.facets.map (·.facet)).Nodup := nodup_facetNames h
  refine List.Nodup.map_on ?_ hfacets.of_map
  intro f hf g hg hname
  exact List.inj_on_of_nodup_map hfacets hf hg (FieldDescriptor.columnName_inj.mp hname).2

/-- Every element has the column of its value. -/
theorem exists_value_mem_facets (h : s.compileElement name adjustments = .ok e) :
    ∃ f ∈ e.facets, f.facet = .value := by
  obtain ⟨r, rfl⟩ := compileElement_eq_ok_iff.mp h
  have hvalue : Facet.value ∈ (r.compiled adjustments).facetNames := by
    rw [r.facetNames_compiled]
    exact List.mem_filter.mpr ⟨by decide, rfl⟩
  exact List.mem_map.mp hvalue

/-- Two elements share no column name exactly if they are named differently. -/
theorem disjoint_columnNames_iff (h : s.compileElement name adjustments = .ok e)
    (h' : s.compileElement other adjustments' = .ok e') :
    (e.facets.map (·.columnName)).Disjoint (e'.facets.map (·.columnName)) ↔
      e.name ≠ e'.name := by
  constructor
  · intro hdisjoint hname
    -- Elements of one name share at least the column of the value, which every element has.
    obtain ⟨f, hf, hfacet⟩ := exists_value_mem_facets h
    obtain ⟨g, hg, hfacet'⟩ := exists_value_mem_facets h'
    have hsame : f.columnName = g.columnName := by
      rw [FieldDescriptor.columnName_inj, element_of_mem_facets h hf, element_of_mem_facets h' hg,
        hname, hfacet, hfacet']
      exact ⟨rfl, rfl⟩
    exact hdisjoint (List.mem_map.mpr ⟨f, hf, rfl⟩) (List.mem_map.mpr ⟨g, hg, hsame.symm⟩)
  · intro hne column hcolumn hcolumn'
    obtain ⟨f, hf, rfl⟩ := List.mem_map.mp hcolumn
    obtain ⟨g, hg, hsame⟩ := List.mem_map.mp hcolumn'
    have helement : g.element = f.element := (FieldDescriptor.columnName_inj.mp hsame).1
    rw [element_of_mem_facets h hf, element_of_mem_facets h' hg] at helement
    exact hne helement.symm

/-- The columns of a compiled object have distinct names exactly if no two of its properties name
one element, whatever the overrides. -/
theorem nodup_columnNames_iff (h : (s.compile name overrides {}).1 = .ok o) :
    ∃ definition, s.schemas.get? name = some (.object definition) ∧
      ((o.columns.map (·.columnName)).Nodup ↔
        (definition.properties.filterMap (fun p => s.elementOf? p.target)).Nodup) := by
  rw [(s.compile_agrees name overrides {} s.sound_empty).1] at h
  obtain ⟨_, definition, hdefinition, _⟩ := composeOn_eq_ok_iff.mp h
  have hdeclared := (objectWithParent_eq_ok_iff.mp hdefinition).1
  refine ⟨definition, hdeclared, ?_⟩
  rw [← elementNames_of_compose hdeclared h, CompiledObject.columns, List.map_flatMap,
    List.nodup_flatMap, List.Nodup, List.pairwise_map]
  have hcompiled : ∀ entry ∈ o.elements,
      s.compileElement entry.2.name (overrides.at entry.1) = .ok entry.2 :=
    fun _ hentry => compileElement_of_mem_elements h hentry
  have hdisjoint : ∀ {a b}, a ∈ o.elements → b ∈ o.elements →
      ((a.2.facets.map (·.columnName)).Disjoint (b.2.facets.map (·.columnName)) ↔
        a.2.name ≠ b.2.name) :=
    fun ha hb => disjoint_columnNames_iff (hcompiled _ ha) (hcompiled _ hb)
  rw [← List.Pairwise.iff_of_mem hdisjoint]
  constructor
  · exact fun hnodup => hnodup.2
  · exact fun hpairwise =>
      ⟨fun entry hentry => nodup_columnNames_of_compileElement (hcompiled entry hentry), hpairwise⟩

/-- A gauge has a reading on either side; a dial has a reading and an element whose name looks like
a column of it. -/
def gauges : Store where
  source := none
  schemas := .ofList [
    ("Dial", .object ⟨none, "", [⟨"Left", .schema "Reading"⟩, ⟨"Right", .schema "Reading_Value"⟩]⟩),
    ("Gauge", .object ⟨none, "", [⟨"Left", .schema "Reading"⟩, ⟨"Right", .schema "Reading"⟩]⟩),
    ("Reading", .element ⟨"TaxonomyElementString", "", "String", none⟩),
    ("Reading_Value", .element ⟨"TaxonomyElementString", "", "String", none⟩)]
  itemTypes := .ofList [("String", .obj [])]
  itemTypeGroups := .empty

/-- The dial has distinct columns, and by the rule because its properties name two elements. -/
theorem nodup_columnNames_dial :
    ∃ o, (gauges.compile "Dial" .empty {}).1 = .ok o ∧ (o.columns.map (·.columnName)).Nodup ∧
      ∃ definition, gauges.schemas.get? "Dial" = some (.object definition) ∧
        ((o.columns.map (·.columnName)).Nodup ↔
          (definition.properties.filterMap (fun p => gauges.elementOf? p.target)).Nodup) := by
  have hdistinct : (fun o => decide (o.columns.map (·.columnName)).Nodup) <$>
      (gauges.compile "Dial" .empty {}).1 = .ok true := by
    cbv
  obtain ⟨o, hcompile, hnodup⟩ := Except.map_eq_ok_iff.mp hdistinct
  exact ⟨o, hcompile, of_decide_eq_true hnodup, nodup_columnNames_iff hcompile⟩

/-- Compiled objects need not have distinct columns: both readings of a gauge take the same ones. -/
theorem not_forall_nodup_columnNames :
    ¬ ∀ (s : Store) (name : String) (overrides : ObjectOverrides) (o : CompiledObject),
      (s.compile name overrides {}).1 = .ok o → (o.columns.map (·.columnName)).Nodup := by
  intro h
  have hrepeats : (fun o => decide (o.columns.map (·.columnName)).Nodup) <$>
      (gauges.compile "Gauge" .empty {}).1 = .ok false := by
    cbv
  obtain ⟨o, hcompile, hnot⟩ := Except.map_eq_ok_iff.mp hrepeats
  exact of_decide_eq_false hnot (h gauges "Gauge" .empty o hcompile)

end Store

end Taxonomy
