import Mathlib.Data.List.Permutation
import Taxonomy.Proofs.Composition.Session

/-!
# The footprint of a composition

To compose an object its own entry is read, the entry of its parent, and those of the names in its
properties; an element among them is compiled from its item type and its group, and an object among
them is composed in turn. These are all the entries that count: a store that has the same ones
composes the object to the same, or refuses it with the same fault, whatever else it holds or lacks.
Parents are looked up but not followed, and the items of arrays are not even looked up.
-/

namespace Taxonomy

/-- An entry of a document: the map that it is in, and its name. -/
inductive EntryName
  | schema (name : String)
  | itemType (name : String)
  | itemTypeGroup (name : String)

namespace Store

variable {s s' : Store} {path : List String} {name root target : String}
variable {overrides : ObjectOverrides}
variable {nested nested' : String → Except TaxonomyError CompiledObject}

/-- Both stores have the same entry, or neither has one. -/
def SameEntry (s s' : Store) : EntryName → Prop
  | .schema name => s.schemas.get? name = s'.schemas.get? name
  | .itemType name => s.itemTypes.get? name = s'.itemTypes.get? name
  | .itemTypeGroup name => s.itemTypeGroups.get? name = s'.itemTypeGroups.get? name

/-- An object that is reached from the root has a property that names the target. -/
def NamesBelow (s : Store) (root target : String) : Prop :=
  ∃ owner definition, s.Reaches root owner ∧ s.schemas.get? owner = some (.object definition) ∧
    ∃ p ∈ definition.properties, p.target = .schema target

/-- The entries that composing the root may read: its own, the parents and the property targets of
the objects that it reaches, and the item types and groups of the elements among these targets. -/
inductive Touches (s : Store) (root : String) : EntryName → Prop
  | root : Touches s root (.schema root)
  | parent {owner parent : String} {definition : ObjectDefinition} (reached : s.Reaches root owner)
      (declared : s.schemas.get? owner = some (.object definition))
      (extended : parent ∈ definition.parent) : Touches s root (.schema parent)
  | target {target : String} (named : s.NamesBelow root target) : Touches s root (.schema target)
  | itemType {target : String} {e : ElementDefinition} (named : s.NamesBelow root target)
      (declared : s.schemas.get? target = some (.element e)) : Touches s root (.itemType e.itemType)
  | itemTypeGroup {target group : String} {e : ElementDefinition} (named : s.NamesBelow root target)
      (declared : s.schemas.get? target = some (.element e)) (grouped : group ∈ e.itemTypeGroup) :
      Touches s root (.itemTypeGroup group)

theorem lookup_congr (h : s.SameEntry s' (.schema name)) : s.lookup name = s'.lookup name := by
  have hentry : s.schemas.get? name = s'.schemas.get? name := h
  rw [lookup, lookup, hentry]

theorem object_congr (h : s.SameEntry s' (.schema name)) : s.object name = s'.object name := by
  rw [object, object, lookup_congr h]

theorem element_congr (h : s.SameEntry s' (.schema name)) : s.element name = s'.element name := by
  rw [element, element, lookup_congr h]

theorem itemType_congr (h : s.SameEntry s' (.itemType name)) :
    s.itemType name = s'.itemType name := by
  have hentry : s.itemTypes.get? name = s'.itemTypes.get? name := h
  rw [Store.itemType, Store.itemType, hentry]

theorem itemTypeGroup_congr {group : Option String}
    (h : ∀ name ∈ group, s.SameEntry s' (.itemTypeGroup name)) :
    s.itemTypeGroup group = s'.itemTypeGroup group := by
  cases group with
  | none => rfl
  | some name =>
      have hentry : s.itemTypeGroups.get? name = s'.itemTypeGroups.get? name := h name rfl
      by_cases hempty : name = ""
      · rw [hempty]
        rfl
      · simp only [Store.itemTypeGroup, hentry]

/-- An object is read from its own entry and that of its parent. -/
theorem objectWithParent_congr (h : s.SameEntry s' (.schema name))
    (hparent : ∀ definition, s.schemas.get? name = some (.object definition) →
      ∀ parent ∈ definition.parent, s.SameEntry s' (.schema parent)) :
    s.objectWithParent name = s'.objectWithParent name := by
  rw [objectWithParent, objectWithParent, ← object_congr h]
  cases hobject : s.object name with
  | error fault => rfl
  | ok definition =>
      have hparent := hparent definition (object_eq_ok_iff.mp hobject)
      simp only [Except.ok_bind]
      cases hextended : definition.parent with
      | none => rfl
      | some parent => simp only [object_congr (hparent parent hextended)]

/-- An element is compiled from its own entry, that of its item type and that of its group. -/
theorem compileElement_congr (h : s.SameEntry s' (.schema name))
    (hread : ∀ e, s.schemas.get? name = some (.element e) → s.SameEntry s' (.itemType e.itemType) ∧
      ∀ group ∈ e.itemTypeGroup, s.SameEntry s' (.itemTypeGroup group))
    (o : ValueOverrides) : s.compileElement name o = s'.compileElement name o := by
  rw [compileElement, compileElement, superclassOf, superclassOf, ← element_congr h]
  cases helement : s.element name with
  | error fault => rfl
  | ok e =>
      obtain ⟨hitemType, hgroup⟩ := hread e (element_eq_ok_iff.mp helement)
      simp only [Except.ok_bind, itemType_congr hitemType, itemTypeGroup_congr hgroup]

/-- What a property stands for depends on the store by the entry that it names. -/
theorem composeProperty_of_sameEntry {p : PropertyDefinition}
    (h : ∀ target, p.target = .schema target → s.SameEntry s' (.schema target) ∧
      s.compileElement target (overrides.at p.name) =
        s'.compileElement target (overrides.at p.name) ∧
      (s.DeclaresObject target → nested target = nested' target)) :
    s.composeProperty overrides nested p = s'.composeProperty overrides nested' p := by
  rw [composeProperty, composeProperty]
  cases htarget : p.target with
  | array items => rfl
  | schema target =>
      obtain ⟨hsame, helement, hnested⟩ := h target htarget
      simp only [← lookup_congr hsame, ← helement]
      cases hentry : s.schemas.get? target with
      | none => rw [lookup_of_none hentry, Except.error_bind, Except.error_bind]
      | some entry =>
          rw [lookup_of_some hentry, Except.ok_bind, Except.ok_bind]
          cases entry with
          | object definition => rw [hnested ⟨definition, hentry⟩]
          | element | array | unrecognized => rfl

/-- Everything that composing goes on to from the root is composed alike in both stores. -/
theorem composeOn_of_sameEntry (h : ∀ entry, s.Touches root entry → s.SameEntry s' entry)
    (hreached : s.Reaches root name) (hself : s.SameEntry s' (.schema name)) :
    s.composeOn path name overrides = s'.composeOn path name overrides := by
  -- The induction follows the first store. What it comes to is touched, so the second has it too.
  induction path, name using composition_induction s generalizing overrides with
  | step path name ih =>
      by_cases hpath : name ∈ path
      · rw [composeOn_of_mem hpath, composeOn_of_mem hpath]
      have hread : s.objectWithParent name = s'.objectWithParent name := by
        refine objectWithParent_congr hself fun definition hentry parent hparent => ?_
        exact h _ (.parent hreached hentry hparent)
      rw [composeOn_of_not_mem hpath, composeOn_of_not_mem hpath, ← hread]
      cases hdefinition : s.objectWithParent name with
      | error fault => rfl
      | ok definition =>
          have hentry := (objectWithParent_eq_ok_iff.mp hdefinition).1
          rw [Except.ok_bind, Except.ok_bind, composeParts_congr]
          intro p hp
          refine composeProperty_of_sameEntry fun target htarget => ?_
          have hnamed : s.NamesBelow root target :=
            ⟨name, definition, hreached, hentry, p, hp, htarget⟩
          have htouched := h _ (.target hnamed)
          refine ⟨htouched, ?_, fun hdeclared => ?_⟩
          · refine compileElement_congr htouched (fun e he => ⟨?_, fun group hgroup => ?_⟩) _
            · exact h _ (.itemType hnamed he)
            · exact h _ (.itemTypeGroup hnamed he hgroup)
          · have hstep : s.Composes name target := ⟨definition, hentry, ⟨p, hp, htarget⟩, hdeclared⟩
            exact ih definition hpath hdefinition target (hreached.tail hstep) htouched

/-- A compilation depends only on what it touches. Two stores that have the same entry, or both
none, for everything that the object touches in one of them compile it to the same or fail with the
same fault, whatever the overrides and whatever was asked of either compiler before. -/
theorem compile_eq_of_sameEntry (h : ∀ entry, s.Touches name entry → s.SameEntry s' entry)
    (overrides : ObjectOverrides) (before before' : List Request) :
    (s.compile name overrides (s.serveAll before {}).2).1 =
      (s'.compile name overrides (s'.serveAll before' {}).2).1 := by
  rw [compile_after, compile_after]
  exact composeOn_of_sameEntry h .refl (h _ .root)

/-- A panel extends a product, which names something that is not declared, and holds cells, which
are not declared either. -/
def panels : Store where
  source := none
  schemas := .ofList [
    ("Frame", .object ⟨none, "", [⟨"Width", .schema "Width"⟩]⟩),
    ("Panel", .object ⟨some "Product", "",
      [⟨"Cells", .array "Cell"⟩, ⟨"Frame", .schema "Frame"⟩]⟩),
    ("Product", .object ⟨none, "", [⟨"Label", .schema "Label"⟩]⟩),
    ("Width", .element ⟨"TaxonomyElementNumber", "", "Length", some "Metric"⟩)]
  itemTypes := .ofList [("Length", .obj [("units", .obj [("ft", .obj []), ("m", .obj [])])])]
  itemTypeGroups := .ofList [("Metric", .obj [("group", .arr [.str "m"])])]

/-- The same document with more entries, none of which can be used. -/
def clutteredPanels : Store where
  source := none
  schemas := (panels.schemas.insert "Cell" (.unrecognized .noShape)).insert "Label"
    (.element ⟨"Text", "", "Length", none⟩)
  itemTypes := panels.itemTypes.insert "Mass" (.obj [("units", .null)])
  itemTypeGroups := panels.itemTypeGroups.insert "Imperial" (.obj [("group", .null)])

theorem objects_panels {definition : ObjectDefinition}
    (h : panels.schemas.get? name = some (.object definition)) :
    name = "Frame" ∧ definition = ⟨none, "", [⟨"Width", .schema "Width"⟩]⟩ ∨
      name = "Panel" ∧ definition = ⟨some "Product", "",
        [⟨"Cells", .array "Cell"⟩, ⟨"Frame", .schema "Frame"⟩]⟩ ∨
      name = "Product" ∧ definition = ⟨none, "", [⟨"Label", .schema "Label"⟩]⟩ := by
  rw [panels, NameMap.get?_ofList] at h
  simpa using Entries.mem_of_lookup h

theorem element_panels {e : ElementDefinition}
    (h : panels.schemas.get? name = some (.element e)) :
    e = ⟨"TaxonomyElementNumber", "", "Length", some "Metric"⟩ := by
  rw [panels, NameMap.get?_ofList] at h
  have hmem := Entries.mem_of_lookup h
  simp only [List.mem_cons, Prod.mk.injEq, reduceCtorEq, and_false, false_or, or_false,
    List.not_mem_nil, SchemaDefinition.element.injEq] at hmem
  exact hmem.2

theorem targets_panels {definition : ObjectDefinition} {p : PropertyDefinition}
    (h : panels.schemas.get? name = some (.object definition)) (hp : p ∈ definition.properties)
    (htarget : p.target = .schema target) :
    name = "Frame" ∧ target = "Width" ∨ name = "Panel" ∧ target = "Frame" ∨
      name = "Product" ∧ target = "Label" := by
  obtain ⟨property, _⟩ := p
  cases htarget
  rcases objects_panels h with ⟨rfl, rfl⟩ | ⟨rfl, rfl⟩ | ⟨rfl, rfl⟩ <;> simp_all

/-- From the panel one comes to its frame and no further, since the product is not followed. -/
theorem reaches_panel (h : panels.Reaches "Panel" name) : name = "Panel" ∨ name = "Frame" := by
  rcases Relation.ReflTransGen.cases_tail h with rfl | ⟨owner, _, hstep⟩
  · exact .inl rfl
  · obtain ⟨_, howner, ⟨p, hp, htarget⟩, _, hname⟩ := hstep
    have htargets := targets_panels howner hp htarget
    have hobjects := objects_panels hname
    grind

theorem namesBelow_panel (h : panels.NamesBelow "Panel" target) :
    target = "Frame" ∨ target = "Width" := by
  obtain ⟨owner, definition, hreached, howner, p, hp, htarget⟩ := h
  have htargets := targets_panels howner hp htarget
  have hreached := reaches_panel hreached
  grind

/-- Nothing that the panel touches is among the added entries. -/
theorem sameEntry_clutteredPanels {entry : EntryName} (h : panels.Touches "Panel" entry) :
    panels.SameEntry clutteredPanels entry := by
  have hschema : ∀ name, name ≠ "Cell" → name ≠ "Label" →
      panels.SameEntry clutteredPanels (.schema name) := by
    intro name hcell hlabel
    simp [SameEntry, clutteredPanels, NameMap.get?_insert, hcell.symm, hlabel.symm]
  cases h with
  | root => exact hschema "Panel" (by decide) (by decide)
  | @parent owner parent definition _ declared extended =>
      have hparent : parent = "Product" := by
        rcases objects_panels declared with ⟨_, rfl⟩ | ⟨_, rfl⟩ | ⟨_, rfl⟩ <;> cases extended
        rfl
      rw [hparent]
      exact hschema "Product" (by decide) (by decide)
  | target named =>
      rcases namesBelow_panel named with rfl | rfl
      · exact hschema "Frame" (by decide) (by decide)
      · exact hschema "Width" (by decide) (by decide)
  | itemType _ declared =>
      rw [element_panels declared, SameEntry, clutteredPanels, NameMap.get?_insert,
        if_neg (by decide)]
  | itemTypeGroup _ declared grouped =>
      rw [element_panels declared] at grouped
      cases grouped
      rw [SameEntry, clutteredPanels, NameMap.get?_insert, if_neg (by decide)]

/-- The panel compiles to the same in both documents, though only one of them declares its cells and
what the product names. -/
theorem compile_eq_of_sameEntry_panel :
    (panels.compile "Panel" .empty {}).1.toBool = true ∧
      (∀ entry, panels.Touches "Panel" entry → panels.SameEntry clutteredPanels entry) ∧
      (panels.compile "Panel" .empty {}).1 = (clutteredPanels.compile "Panel" .empty {}).1 := by
  have hcompile : (panels.compile "Panel" .empty {}).1.toBool = true := by
    cbv
  exact ⟨hcompile, fun _ h => sameEntry_clutteredPanels h,
    compile_eq_of_sameEntry (fun _ h => sameEntry_clutteredPanels h) .empty [] []⟩

end Store

end Taxonomy
