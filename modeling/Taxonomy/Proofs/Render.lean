import Taxonomy.Proofs.Composition.Columns
import Taxonomy.Proofs.Registry.Coherence
import Taxonomy.Proofs.Schema.Load
import Taxonomy.Render

/-!
# Pending edits

What is below a record is rendered from what is stored, so pending edits only reach the elements
of the record itself, and there they are looked up by column. The properties of a loaded object have
distinct names and each of them has one part, so no part of the rendered object takes the place of
another.
-/

namespace Taxonomy

namespace CompiledElement

variable {e : CompiledElement} {edits edits' : PendingEdits}

/-- The value that is shown for a column: the pending one, even if it is null, or else the stored
one, or else null. -/
def shown (values : List (String × FacetValue)) (edits : PendingEdits) (column : String) : Json :=
  match Entries.lookup column edits, Entries.lookup column values with
  | some pending, _ => pending
  | none, some stored => stored.toJson
  | none, none => .null

theorem render_eq (e : CompiledElement) (values : List (String × FacetValue))
    (edits : PendingEdits) :
    e.render values edits = .obj
      ((e.facets.map (fun f => (f.facet.name, shown values edits f.columnName))).foldl
        (fun members m => Entries.set m.1 m.2 members) []) := by
  have hshown : ∀ column, ((Entries.lookup column edits).or
      ((Entries.lookup column values).map FacetValue.toJson)).getD .null =
        shown values edits column := by
    intro column
    unfold shown
    cases Entries.lookup column edits <;> cases Entries.lookup column values <;> rfl
  simp only [render, hshown, List.foldl_map]

/-- The facets are shown under their names, each of them once. -/
theorem render_of_nodup (values : List (String × FacetValue)) (edits : PendingEdits)
    (h : e.facetNames.Nodup) :
    e.render values edits =
      .obj (e.facets.map (fun f => (f.facet.name, shown values edits f.columnName))) := by
  have hnames : (e.facetNames.map Facet.name).Nodup :=
    h.map fun _ _ hname => Facet.name_inj.mp hname
  have hdistinct : Entries.Distinct
      (e.facets.map (fun f => (f.facet.name, shown values edits f.columnName))) := by
    rw [facetNames, List.map_map] at hnames
    rw [Entries.Distinct, List.map_map]
    exact hnames
  rw [render_eq, Entries.foldl_set_of_distinct hdistinct]

/-- Edits of other columns change nothing. -/
theorem render_congr (values : List (String × FacetValue))
    (h : ∀ f ∈ e.facets, Entries.lookup f.columnName edits = Entries.lookup f.columnName edits') :
    e.render values edits = e.render values edits' := by
  have hsame : e.facets.map (fun f => (f.facet.name, shown values edits f.columnName)) =
      e.facets.map (fun f => (f.facet.name, shown values edits' f.columnName)) := by
    refine List.map_congr_left ?_
    intro f hf
    rw [shown, shown, h f hf]
  rw [render_eq, render_eq, hsame]

end CompiledElement

namespace Record

variable {r : Registry} {s : Store} {name : String} {definition : ObjectDefinition}
variable {record : Record} {o : CompiledObject} {edits edits' : PendingEdits}
variable {below : List (String × Json)}

/-- The stored values by column. -/
def values : Record → List (String × FacetValue)
  | mk values _ _ => values

/-- The rendered elements of a record. -/
def renderElements (record : Record) (edits : PendingEdits) (o : CompiledObject) :
    List (String × Json) :=
  o.elements.map (fun e => (e.1, e.2.render record.values edits))

/-- The rendered nested objects and arrays of a record. -/
def renderBelow (r : Registry) (o : CompiledObject) :
    Record → Except TaxonomyError (List (String × Json))
  | mk _ nested arrays => do
    let objects ← renderObjects (nestedRenderings r nested) o.objects
    let lists ← renderArrays r (arrayRenderings r arrays) o.arrays
    return objects ++ lists

/-- What is below a record does not depend on the edits, and it alone can fail. -/
theorem render_eq (r : Registry) (record : Record) (edits : PendingEdits) (o : CompiledObject) :
    record.render r edits o =
      (fun below => .obj ((record.renderElements edits o ++ below).foldl
        (fun members m => Entries.set m.1 m.2 members) [])) <$> record.renderBelow r o := by
  obtain ⟨values, nested, arrays⟩ := record
  simp only [render, renderWith, renderBelow, renderElements, Record.values, map_bind, map_pure,
    List.append_assoc]

theorem names_of_renderObjects {nested : List (String × Rendering)}
    {objects : List (String × CompiledObject)} (h : renderObjects nested objects = .ok below) :
    below.map (·.1) = objects.map (·.1) := by
  induction objects generalizing below with
  | nil =>
      cases h
      rfl
  | cons entry rest ih =>
      rw [renderObjects] at h
      -- With a record or without one, the property gets a member.
      split at h
      all_goals
        simp only [Except.bind_eq_ok_iff] at h
        obtain ⟨_, _, others, hothers, hbelow⟩ := h
        cases hbelow
        rw [List.map_cons, List.map_cons, ih hothers]

theorem names_of_renderArrays {arrays : List (String × List Rendering)} {usages : List ArrayUsage}
    (h : renderArrays r arrays usages = .ok below) :
    below.map (·.1) = usages.map (·.property) := by
  induction usages generalizing below with
  | nil =>
      cases h
      rfl
  | cons usage rest ih =>
      simp only [renderArrays, Except.bind_eq_ok_iff] at h
      obtain ⟨_, _, _, _, others, hothers, hbelow⟩ := h
      cases hbelow
      rw [List.map_cons, List.map_cons, ih hothers]

theorem names_of_renderBelow (h : record.renderBelow r o = .ok below) :
    below.map (·.1) = o.objects.map (·.1) ++ o.arrays.map (·.property) := by
  obtain ⟨values, nested, arrays⟩ := record
  simp only [renderBelow, Except.bind_eq_ok_iff] at h
  obtain ⟨objects, hobjects, lists, hlists, hbelow⟩ := h
  cases hbelow
  rw [List.map_append, names_of_renderObjects hobjects, names_of_renderArrays hlists]

/-- The elements and what is below have one member for each property of the object. -/
theorem names_of_rendered (edits : PendingEdits) (h : record.renderBelow r o = .ok below) :
    (record.renderElements edits o ++ below).map (·.1) = o.properties := by
  rw [List.map_append, names_of_renderBelow h, renderElements, List.map_map,
    CompiledObject.properties, List.append_assoc]
  rfl

/-- What is below a record is found in it, whatever the elements are. -/
theorem exists_lookup_of_renderBelow (h : record.renderBelow r o = .ok below) {property : String}
    (hproperty : property ∈ o.objects.map (·.1) ++ o.arrays.map (·.property)) :
    ∃ value, ∀ elements, Entries.Distinct (elements ++ below) →
      Entries.lookup property (elements ++ below) = some value := by
  rw [← names_of_renderBelow h] at hproperty
  obtain ⟨⟨_, value⟩, hmem, rfl⟩ := List.mem_map.mp hproperty
  exact ⟨value, fun elements hdistinct =>
    Entries.lookup_of_mem hdistinct (List.mem_append_right elements hmem)⟩

/-- Edits of columns that are not columns of the object change nothing. -/
theorem render_congr (r : Registry) (record : Record)
    (h : ∀ f ∈ o.columns, Entries.lookup f.columnName edits = Entries.lookup f.columnName edits') :
    record.render r edits o = record.render r edits' o := by
  have hsame : record.renderElements edits o = record.renderElements edits' o := by
    refine List.map_congr_left ?_
    intro entry hentry
    have hcolumns : ∀ f ∈ entry.2.facets, f ∈ o.columns :=
      fun f hf => List.mem_flatMap.mpr ⟨entry, hentry, hf⟩
    rw [CompiledElement.render_congr record.values fun f hf => h f (hcolumns f hf)]
  rw [render_eq, render_eq, hsame]

/-- The members of a rendered record, next to those without pending edits. There is one for each
declared property; what is below the record is the same, and every facet of an element is the value
that is shown for its column. -/
structure Edited (definition : ObjectDefinition) (o : CompiledObject) (record : Record)
    (edits : PendingEdits) (plain members : List (String × Json)) : Prop where
  distinct : (members.map (·.1)).Nodup
  properties : (members.map (·.1)).Perm (definition.properties.map (·.name))
  objects : ∀ entry ∈ o.objects, ∃ value,
    Entries.lookup entry.1 plain = some value ∧ Entries.lookup entry.1 members = some value
  arrays : ∀ usage ∈ o.arrays, ∃ value,
    Entries.lookup usage.property plain = some value ∧
      Entries.lookup usage.property members = some value
  elements : ∀ entry ∈ o.elements,
    Entries.lookup entry.1 members = some (.obj (entry.2.facetNames.map (fun facet =>
      (facet.name, CompiledElement.shown record.values edits (entry.2.name ++ "_" ++ facet.name)))))

/-- Rendering a record with pending edits, next to rendering it without. -/
structure Overlays (r : Registry) (definition : ObjectDefinition) (o : CompiledObject)
    (record : Record) (edits : PendingEdits) : Prop where
  /-- Edits neither cause a fault nor avert one. -/
  fault : ∀ fault, record.render r edits o = .error fault ↔ record.render r [] o = .error fault
  success : ∀ rendered, record.render r edits o = .ok rendered → ∃ plain members,
    record.render r [] o = .ok (.obj plain) ∧ rendered = .obj members ∧
      Edited definition o record edits plain members
  others : ∀ edits' : PendingEdits, (∀ f ∈ o.columns,
    Entries.lookup f.columnName edits = Entries.lookup f.columnName edits') →
      record.render r edits o = record.render r edits' o

/-- An element shows its facets, each by the column that is named after both. -/
theorem render_element_of_compose {overrides : ObjectOverrides}
    (h : s.compose name overrides = .ok o) {entry : String × CompiledElement}
    (hentry : entry ∈ o.elements) (values : List (String × FacetValue)) (edits : PendingEdits) :
    entry.2.render values edits = .obj (entry.2.facetNames.map (fun facet =>
      (facet.name, CompiledElement.shown values edits (entry.2.name ++ "_" ++ facet.name)))) := by
  have hcompile := Store.compileElement_of_mem_elements h hentry
  have hshown : ∀ f ∈ entry.2.facets,
      (f.facet.name, CompiledElement.shown values edits f.columnName) =
        (f.facet.name,
          CompiledElement.shown values edits (entry.2.name ++ "_" ++ f.facet.name)) := by
    intro f hf
    rw [FieldDescriptor.columnName, Store.element_of_mem_facets hcompile hf]
  rw [CompiledElement.render_of_nodup values edits (Store.nodup_facetNames hcompile),
    List.map_congr_left hshown, CompiledElement.facetNames, List.map_map]
  rfl

/-- Where no two declared properties share a name, the members of a rendered record are its elements
and what is below it. -/
theorem render_of_renderBelow (edits : PendingEdits) (hnodup : o.properties.Nodup)
    (hbelow : record.renderBelow r o = .ok below) :
    record.render r edits o = .ok (.obj (record.renderElements edits o ++ below)) ∧
      Entries.Distinct (record.renderElements edits o ++ below) := by
  have hdistinct : Entries.Distinct (record.renderElements edits o ++ below) := by
    rw [Entries.Distinct, names_of_rendered edits hbelow]
    exact hnodup
  refine ⟨?_, hdistinct⟩
  rw [render_eq, hbelow, Except.map_ok, Entries.foldl_set_of_distinct hdistinct]

/-- The members with pending edits and those without, where no two declared properties share a
name. -/
theorem edited_of_renderBelow (edits : PendingEdits)
    (hdeclared : s.schemas.get? name = some (.object definition))
    (hcompose : s.compose name .empty = .ok o) (hnodup : o.properties.Nodup)
    (hbelow : record.renderBelow r o = .ok below) :
    Edited definition o record edits (record.renderElements [] o ++ below)
      (record.renderElements edits o ++ below) := by
  have hplain := (render_of_renderBelow [] hnodup hbelow).2
  have hdistinct := (render_of_renderBelow edits hnodup hbelow).2
  have hproperties := Store.perm_properties_of_compose hdeclared hcompose
  have hbelowSame : ∀ property ∈ o.objects.map (·.1) ++ o.arrays.map (·.property), ∃ value,
      Entries.lookup property (record.renderElements [] o ++ below) = some value ∧
        Entries.lookup property (record.renderElements edits o ++ below) = some value := by
    intro property hproperty
    obtain ⟨value, hvalue⟩ := exists_lookup_of_renderBelow hbelow hproperty
    exact ⟨value, hvalue _ hplain, hvalue _ hdistinct⟩
  refine ⟨hdistinct, names_of_rendered edits hbelow ▸ hproperties, ?_, ?_, ?_⟩
  · intro entry hentry
    exact hbelowSame _ (List.mem_append_left _ (List.mem_map.mpr ⟨entry, hentry, rfl⟩))
  · intro usage husage
    exact hbelowSame _ (List.mem_append_right _ (List.mem_map.mpr ⟨usage, husage, rfl⟩))
  · intro entry hentry
    rw [← render_element_of_compose hcompose hentry]
    refine Entries.lookup_of_mem hdistinct (List.mem_append_left _ ?_)
    exact List.mem_map.mpr ⟨entry, hentry, rfl⟩

/-- Pending edits reach the elements of the record itself and nothing else. -/
theorem overlays_of_build (hloaded : s.Loaded) (hbuild : Registry.build s = .ok r)
    (hobject : r.object name = .ok o) (record : Record) (edits : PendingEdits) :
    ∃ definition, s.schemas.get? name = some (.object definition) ∧
      record.Overlays r definition o edits := by
  obtain ⟨⟨definition, hdeclared⟩, hcompose⟩ :=
    (Registry.get?_objects_of_build hbuild).mp (Registry.object_eq_ok_iff.mp hobject)
  have hnodup : o.properties.Nodup :=
    (Store.perm_properties_of_compose hdeclared hcompose).nodup_iff.mpr
      (hloaded.ordered hdeclared).nodup_names
  refine ⟨definition, hdeclared, ?_, ?_, fun edits' h => render_congr r record h⟩
  · intro fault
    rw [render_eq, render_eq, Except.map_eq_error_iff, Except.map_eq_error_iff]
  · intro rendered hrendered
    have hsuccess := hrendered
    rw [render_eq, Except.map_eq_ok_iff] at hsuccess
    obtain ⟨below, hbelow, _⟩ := hsuccess
    rw [(render_of_renderBelow edits hnodup hbelow).1] at hrendered
    cases hrendered
    exact ⟨_, _, (render_of_renderBelow [] hnodup hbelow).1, rfl,
      edited_of_renderBelow edits hdeclared hcompose hnodup hbelow⟩

/-- A sign has a code and stands on a post, which has the same code, and there are spare posts. -/
def signs : Store where
  source := none
  schemas := .ofList [
    ("Code", .element ⟨"TaxonomyElementString", "", "String", none⟩),
    ("Post", .object ⟨none, "", [⟨"Code", .schema "Code"⟩]⟩),
    ("Sign", .object ⟨none, "", [⟨"Code", .schema "Code"⟩, ⟨"Post", .schema "Post"⟩,
      ⟨"Spares", .array "Post"⟩]⟩)]
  itemTypes := .ofList [("String", .obj [])]
  itemTypeGroups := .empty

def signsDocument : Json :=
  .obj [
    ("schemas", .obj [
      ("Code", .obj [("allOf", .arr [.obj [("$ref", .str "TaxonomyElementString")],
        .obj [("item-type", .str "String")]])]),
      ("Post", .obj [("properties", .obj [("Code", .null)])]),
      ("Sign", .obj [("properties", .obj [("Code", .null), ("Post", .null),
        ("Spares", .obj [("type", .str "array"), ("items", .obj [("$ref", .str "Post")])])])])]),
    ("item-types", .obj [("String", .obj [])])]

theorem ofValue_signsDocument : Store.ofValue signsDocument = .ok signs := by
  cbv

/-- A record of which only the code is known. -/
def coded (code : String) (nested : List (String × Record)) (arrays : List (String × List Record)) :
    Record :=
  mk [("Code_Value", .string code)] nested arrays

/-- A sign on its post, with a spare post. -/
def sign : Record :=
  coded "S1" [("Post", coded "P1" [] [])] [("Spares", [coded "P2" [] []])]

/-- The facets of a code of which no times are known. -/
def codeFacets (value : Json) : Json :=
  .obj [("EndTime", .null), ("StartTime", .null), ("Value", value)]

/-- A rendered sign whose code is shown as a value. -/
def signMembers (value : Json) : List (String × Json) :=
  [("Code", codeFacets value), ("Post", .obj [("Code", codeFacets (.str "P1"))]),
    ("Spares", .arr [.obj [("Code", codeFacets (.str "P2"))]])]

/-- The column of the code occurs in the sign, in its post and in the spare post; a pending null
stands in for the code of the sign alone. -/
theorem overlays_of_build_signs : ∃ r o, Registry.build signs = .ok r ∧ r.object "Sign" = .ok o ∧
    (∃ definition, signs.schemas.get? "Sign" = some (.object definition) ∧
      sign.Overlays r definition o [("Code_Value", .null)]) ∧
    sign.render r [] o = .ok (.obj (signMembers (.str "S1"))) ∧
    sign.render r [("Code_Value", .null)] o = .ok (.obj (signMembers .null)) := by
  have hrendered : (do
      let r ← Registry.build signs
      let o ← r.object "Sign"
      let plain ← sign.render r [] o
      let edited ← sign.render r [("Code_Value", .null)] o
      return (plain, edited)) =
        .ok (.obj (signMembers (.str "S1")), .obj (signMembers .null)) := by
    cbv
  obtain ⟨r, hbuild, hrendered⟩ := Except.bind_eq_ok_iff.mp hrendered
  obtain ⟨o, hobject, hrendered⟩ := Except.bind_eq_ok_iff.mp hrendered
  obtain ⟨plain, hplain, hrendered⟩ := Except.bind_eq_ok_iff.mp hrendered
  obtain ⟨edited, hedited, hrendered⟩ := Except.bind_eq_ok_iff.mp hrendered
  cases hrendered
  exact ⟨r, o, hbuild, hobject,
    overlays_of_build (.value ofValue_signsDocument) hbuild hobject _ _, hplain, hedited⟩

end Record

end Taxonomy
